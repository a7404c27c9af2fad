import Apartments.HyperPay.Gateway
import Apartments.Text
import Mathlib.Data.List.Infix

/-!
# What a guest is owed (`reservations/services/refunds.py`, `_record_refund_if_owed`)

`Account` is a reservation outside the loyalty path: the stay as the refund rules read it, and the gateway of
the reservation with its payments, its receipt and its refund obligations. The amounts below are computed as the
source computes them, each from the rows of the moment; `complete` is what the end of an executed change writes.
-/

namespace Apartments.Refunds

open Payments HyperPay

/-- A component of the quote that the booking was made on; `total` is `none` where it is no number. -/
structure Component where
  type : String
  title : String
  total : Option Dec
deriving DecidableEq

/-- A row of `CancellationPolicyTier`. -/
structure Tier where
  policyCode : String
  minHoursBeforeCheckIn : ℕ
  refundPercentage : Dec
  refundsCleaningFee : Bool
  isActive : Bool
  percentage : 0 ≤ refundPercentage ∧ refundPercentage ≤ 100
deriving DecidableEq

structure Settings where
  launchFlexibleCancellation : Bool
  tiers : List Tier
deriving DecidableEq

/-- The reservation as the refund rules read it; `cancellationPolicy` is `none` without a property, and
`arrival` is `check_in_datetime`, in seconds. -/
structure Stay where
  totalPrice : Dec
  currency : String
  cancellationPolicy : Option String
  arrival : Time
  components : Option (List Component)
deriving DecidableEq

structure Account where
  stay : Stay
  gateway : Gateway
deriving DecidableEq

namespace Account

def desk (a : Account) : Desk := a.gateway.desk

def obligations (a : Account) : List RefundObligation := a.gateway.desk.obligations

def record (a : Account) (o : RefundObligation) : Account :=
  { a with gateway.desk.obligations := a.obligations ++ [o] }

def modify (a : Account) (pk : Uuid) (f : RefundObligation → RefundObligation) : Account :=
  { a with gateway.desk := a.desk.modifyObligation pk f }

end Account

def cleaningMarkers : List String := ["cleaning", "clean", "تنظيف"]

def isCleaning (c : Component) : Bool :=
  cleaningMarkers.any fun marker => decide (marker.toList <:+: (Text.casefold (c.type ++ " " ++ c.title)).toList)

/-- `_cleaning_fee`. -/
def cleaningFee (stay : Stay) : Dec :=
  match stay.components with
  | none => 0
  | some components => max ((components.filter isCleaning).map fun c => c.total.getD 0).sum 0

/-- Money was collected by the attempt, whether or not some of it went back. -/
def collectedStatus (p : PaymentAttempt) : Bool :=
  p.status == .succeeded || p.status == .partiallyRefunded || p.status == .refunded

/-- The receipt of a collection that has no payment attempt of its own. -/
def standaloneReceipt (a : Account) : Option OfflinePaymentReceipt :=
  a.desk.offlinePaymentReceipt.filter (·.paymentAttempt.isNone)

/-- The original collection of the booking. -/
def originalPayment (a : Account) (intent : Uuid) : Option PaymentAttempt :=
  Table.first newerFirst <| a.desk.payments.filter fun p =>
    p.bookingIntent == intent && p.modificationRequest == none && collectedStatus p && p.currency == a.stay.currency

/-- A refund without an allocation counts against every payment. -/
def countsAgainst (payment : PaymentAttempt) (o : RefundObligation) : Bool :=
  let paymentId := o.calculation.detail.originalPaymentId
  paymentId == none || paymentId == some "" || paymentId == payment.providerPaymentId

/-- `successful_original_payment_amount`. -/
def successfulOriginalPaymentAmount (a : Account) : Option Dec :=
  match standaloneReceipt a with
  | some receipt =>
    some (max (receipt.amount -
      Table.total (fun o => o.currency == receipt.currency && outgoing o) RefundObligation.amount a.obligations) 0)
  | none =>
    match a.desk.bookingIntent.bind (originalPayment a) with
    | none => none
    | some payment =>
      if payment.status = .refunded then some 0
      else
        some (max (payment.amount -
          Table.total (fun o => o.currency == a.stay.currency && outgoing o && countsAgainst payment o)
            RefundObligation.amount a.obligations) 0)

/-- `RefundComputation`; of its detail the key that is read back. -/
structure RefundComputation where
  amount : Dec
  currency : String
  source : Option String
deriving DecidableEq

/-- The tier a cancellation reaches: of the active tiers of the policy the widest window that is kept. -/
def matchingTier (s : Settings) (policy : String) (hours : ℕ) : Option Tier :=
  Table.first (fun s t => t.minHoursBeforeCheckIn < s.minHoursBeforeCheckIn) <| s.tiers.filter fun t =>
    Text.casefold t.policyCode == Text.casefold policy && t.isActive && t.minHoursBeforeCheckIn ≤ hours

/-- What a tier returns of a stay of which `original` is left to refund. -/
def tierRefund (tier : Tier) (stay : Stay) (original : Dec) : Dec :=
  let cleaning := if tier.refundsCleaningFee then 0 else min (cleaningFee stay) stay.totalPrice
  let base := min (stay.totalPrice - cleaning) original
  max (Dec.quantize 4 (base * tier.refundPercentage / 100)) 0

/-- Whole hours before the check-in, none after it. -/
def hoursBefore (stay : Stay) (moment : Time) : ℕ := (stay.arrival - moment) / 3600

/-- The tier that applies, if the property has a policy and the policy a tier. -/
def appliedTier (s : Settings) (stay : Stay) (moment : Time) : Option Tier :=
  let policy := Text.strip (stay.cancellationPolicy.getD "")
  if policy = "" then none else matchingTier s policy (hoursBefore stay moment)

/-- `cancellation_refund`; `none` where the source raises, on a reservation without a property. -/
def cancellationRefund (s : Settings) (a : Account) (moment : Time) : Option RefundComputation :=
  if s.launchFlexibleCancellation then
    if a.stay.cancellationPolicy.isNone then none
    else
      match successfulOriginalPaymentAmount a with
      | some original =>
        if moment < a.stay.arrival then
          some ⟨Dec.quantize 4 original, a.stay.currency, some "launch_flexible_cancellation_policy"⟩
        else some ⟨0, a.stay.currency, none⟩
      | none => some ⟨0, a.stay.currency, none⟩
  else
    match successfulOriginalPaymentAmount a, appliedTier s a.stay moment with
    | some original, some tier => some ⟨tierRefund tier a.stay original, a.stay.currency, none⟩
    | _, _ => some ⟨0, a.stay.currency, none⟩

/-- The text of the `ValidationError` of `record_obligation`. -/
def receiptExceeded : String := "الاسترداد يتجاوز صافي القبض اليدوي الموثق."

/-- `record_obligation`. -/
def recordObligation (a : Account) (reason : RefundReason) (c : RefundComputation) (modification pk : Uuid) :
    Except String (Option RefundObligation) :=
  if c.amount ≤ 0 then .ok none
  else if a.desk.offlinePaymentReceipt.isSome ∧ (successfulOriginalPaymentAmount a).getD 0 < c.amount then
    .error receiptExceeded
  else
    .ok <| some {
      pk
      modificationRequest := some modification
      reason
      status := .due
      amount := c.amount
      currency := c.currency
      calculation :=
        { Calculation.empty with
          receiptProvider := if a.desk.offlinePaymentReceipt.isSome then some "manual" else none
          source := c.source }
      transferReference := ""
      transferredAt := none
      transferredBy := none }

/-! ### Settlement of owner-priced changes (`owner_settlement.py`) -/

/-- `settlement_blocker`. -/
def settlementBlocker (a : Account) : String :=
  if a.desk.payments.any fun p =>
      a.desk.bookingIntent == some p.bookingIntent && refundable p && p.verifiedAt.isSome && p.currency != a.stay.currency
  then "payment_currency_reconciliation_required"
  else if a.obligations.any fun o => (o.status == .due || o.status == .processing) && decide (0 < o.amount) then
    "previous_refund_requires_reconciliation"
  else ""

/-- The verified collections of the booking. -/
def verifiedCollections (a : Account) : Dec :=
  Table.total
      (fun p => a.desk.bookingIntent == some p.bookingIntent && collectedStatus p && p.verifiedAt.isSome &&
        p.currency == a.stay.currency)
      PaymentAttempt.amount a.desk.payments +
    ((standaloneReceipt a).filter (·.currency == a.stay.currency)).elim 0 (·.amount)

/-- `paid` of `settlement_for`. -/
def netPaid (a : Account) : Dec :=
  max (verifiedCollections a -
    Table.total (fun o => outgoing o && o.currency == a.stay.currency) RefundObligation.amount a.obligations) 0

/-! ### Completed changes -/

/-- What an executed request and the provider's snapshot of it bring: the stay's new total and arrival, and for a
repricing how the price differs. -/
structure Change where
  pk : Uuid
  cancellation : Bool
  total : Dec.Column
  nonneg : 0 ≤ total.val
  arrival : Time
  priceDifference : Dec.Column
  currency : String
  ownerSettlement : Bool

/-- The refund that `_record_refund_if_owed` computes, before an approved amount. -/
def refundOwed (s : Settings) (a : Account) (moment : Time) (c : Change) : Option RefundComputation :=
  if c.cancellation then cancellationRefund s a moment
  else if c.ownerSettlement then
    if netPaid a - c.total.val ≤ 0 then none
    else some ⟨netPaid a - c.total.val, c.currency, some "owner_final_total_vs_net_paid"⟩
  else if c.priceDifference.val < 0 then
    match successfulOriginalPaymentAmount a with
    | none => none
    | some original => some ⟨min |c.priceDifference.val| original, c.currency, some "modification_price_difference"⟩
  else none

/-- The approved amount takes the place of the computed one, if it is no more. -/
def approvedRefund (approved : Option Dec.Column) (r : RefundComputation) : Option RefundComputation :=
  match approved with
  | none => some r
  | some x => if x.val < 0 ∨ r.amount < x.val then none else some { r with amount := x.val }

/-- The stay as the provider's snapshot of the change leaves it. -/
def changedStay (c : Change) (stay : Stay) : Stay := { stay with totalPrice := c.total.val, arrival := c.arrival }

/-- `_record_refund_if_owed`, on the changed reservation. -/
def recordRefundIfOwed (s : Settings) (a : Account) (moment : Time) (c : Change) (approved : Option Dec.Column)
    (pk : Uuid) : Account :=
  match (refundOwed s a moment c).bind (approvedRefund approved) with
  | none => a
  | some r =>
    match recordObligation a (if c.cancellation then .cancellation else .modificationDecrease) r c.pk pk with
    | .ok (some o) => a.record o
    | _ => a

/-- The end of an executed change. A repricing in another currency is refused when it is quoted, one with an
owner's total while `settlement_blocker` stands in the way. -/
def complete (s : Settings) (a : Account) (moment : Time) (c : Change) (approved : Option Dec.Column) (pk : Uuid) :
    Account :=
  if a.obligations.any (·.pk == pk) then a
  else if !c.cancellation && (c.currency != a.stay.currency || (c.ownerSettlement && settlementBlocker a != "")) then a
  else recordRefundIfOwed s { a with stay := changedStay c a.stay } moment c approved pk

/-! ### The owner's desk (`operations_views.py`) -/

/-- `approve_amount`, for an amount that is not raised. -/
def approveAmount (amount : Dec.Column) (o : RefundObligation) : RefundObligation :=
  if o.status = .due ∧ 0 ≤ amount.val ∧ amount.val ≤ o.amount then { o with amount := amount.val } else o

/-- `mark_transferred`. -/
def markTransferred (reference : String) (now : Time) (operator : ℕ) (o : RefundObligation) : RefundObligation :=
  if o.status = .due ∧ 0 < o.amount then
    { o with
      status := .transferred
      transferReference := reference
      transferredAt := some now
      transferredBy := some operator }
  else o

/-- `close_without_transfer`. -/
def closeWithoutTransfer (o : RefundObligation) : RefundObligation :=
  if o.status = .due ∧ o.amount = 0 then { o with status := .cancelled } else o

end Apartments.Refunds
