import Apartments.Lib.Locks
import Apartments.Loyalty.Services

/-!
# Writers of one loyalty document

`Reservation.loyalty_state` is read and written whole. Each writer is the function that makes the document it saves of
the one it has read, `none` when it saves none; what it reads elsewhere is its argument. The locks are those of the
source: `posting_transaction` takes the financial lock, `select_for_update` the row or the intent, and any save takes
the row until the transaction ends.
-/

namespace Apartments.Documents

open Loyalty

/-- `loyalty_state["priced_nights"]`, the night prices of a quote. -/
structure PricedNights where
  currency : String
  reference : String
  nights : List (String × Dec)
deriving DecidableEq

/-- `loyalty_state["manual_lodging_price"]`. -/
structure Attestation where
  total : Dec
  reference : String
  operator : User
  at_ : Time
deriving DecidableEq

/-- An entry of `loyalty_state["refund_plans"]`; `modification` is its key. -/
structure RefundPlan where
  modification : Uuid
  cash : Dec
  points : Dec
  pointsTarget : Dec
  source : String
  obligations : List Uuid
  recordedAt : Time
deriving DecidableEq

structure Document extends LoyaltyState where
  refundPlans : List RefundPlan
  pricedNights : Option PricedNights
  manualLodgingPrice : Option Attestation
deriving DecidableEq

/-- What a transaction reads beside the document. `allowed` says that the checks on accounts, scope, dates and
references pass; `total` is the total of the booking in SAR and `gross` the payment amount of its intent. -/
structure Outside where
  allowed : Bool
  booking : Booking
  member : ℕ
  available : Dec
  total : Dec
  gross : Dec
  cash : Dec
deriving DecidableEq

/-- The booking object with the document that was read. -/
def Outside.loaded (o : Outside) (d : Document) : Booking := { o.booking with loyaltyState := d.toLoyaltyState }

/-! ### Points -/

/-- `hold`. -/
def hold (o : Outside) (request : String) (value : Dec) (d : Document) : Option Document :=
  if o.allowed = false ∨
      (o.booking.normalizedStatus ≠ .awaitingPayment ∧ o.booking.normalizedStatus ≠ .readyForHostaway) ∨
      d.hold ≠ none ∨ d.redemption ≠ none then none
  else if unpaid o.booking = false then none
  else
    match cents value with
    | .error _ => none
    | .ok n =>
      if amount n ≤ 0 ∨ o.total < amount n ∨ o.available < amount n then none
      else some { d with hold := some ⟨amount n, o.member, request⟩ }

/-- The document without a hold. -/
def released (d : Document) : Document := { d with hold := none, checkoutFrozen := false }

/-- `release`. -/
def release (o : Outside) (d : Document) : Option Document :=
  if o.allowed = false ∨ (releaseAllowed (o.loaded d)).isOk = false then none else some (released d)

/-- `release_expired_points`; `expired` is the status of the intent. -/
def releaseExpiredPoints (o : Outside) (expired : Bool) (d : Document) : Option Document :=
  if d.hold = none ∨ o.allowed = false ∨ o.booking.isActive = true ∨ expired = false ∨
      (releaseAllowed (o.loaded d)).isOk = false then none
  else some (released d)

/-- `redeem`. The hold is saved away before the debit `row` is posted and the redemption after it, in one
transaction. -/
def redeem (o : Outside) (row : Option ℕ) (d : Document) : Option Document :=
  if o.allowed = false ∨ d.redemption ≠ none then none
  else
    match d.hold, row with
    | some held, some row =>
      if o.booking.isActive = false ∨ held.member ≠ o.member then none
      else some { d with hold := none, redemption := some ⟨held.value, row, 0⟩ }
    | _, _ => none

/-- The document after `restore_points`, which is the one read when nothing more is restored. -/
def restored (o : Outside) (cumulativeValue : Dec) (evidenceReference : String) (posted : Bool) (d : Document) :
    Option Document :=
  match o.allowed && evidenceReference != "", d.redemption, cents cumulativeValue with
  | true, some r, .ok n =>
    if amount n < r.restored ∨ r.value < amount n then none
    else if amount n = r.restored then some d
    else if posted = false then none
    else some { d with redemption := some { r with restored := amount n } }
  | _, _, _ => none

/-- `restore_points`. -/
def restorePoints (o : Outside) (cumulativeValue : Dec) (evidenceReference : String) (posted : Bool) (d : Document) :
    Option Document :=
  (restored o cumulativeValue evidenceReference posted d).filter (· ≠ d)

/-! ### Settling -/

/-- What `reconcile` reads beside the document: the account that a paid phone identifies, the facts of the booking, its
owner and inviters. -/
structure Reconciling where
  allowed : Bool
  identified : Option User
  facts : Document → Except String Facts
  owner : ℕ
  ancestors : Option (List Member)
  inBulk : List ℕ → List Member
  posted : Bool

/-- The inviters that the settlement rewards; `none` if that raises. -/
def Reconciling.chain (q : Reconciling) (facts : Facts) (d : Document) : Option (List Member) :=
  if facts.offer.isSome then some []
  else
    match d.referralChain with
    | none => q.ancestors
    | some fixed => if (q.inBulk fixed).length ≠ fixed.length ∨ q.owner ∈ fixed then none else some (q.inBulk fixed)

/-- The document with what `attach_paid_phone_account` notes in it. -/
def Reconciling.identify (q : Reconciling) (d : Document) : Document :=
  { d with identityMatch := q.identified.or d.identityMatch }

/-- `reconcile`. -/
def reconcile (digest : Payload → String) (q : Reconciling) (read : Document) : Option Document :=
  let d := q.identify read
  if q.allowed = false then none
  else
    match q.facts d with
    | .error blocker => some { d with review := some (.blocked blocker) }
    | .ok facts =>
      match q.chain facts d with
      | none => none
      | some chain =>
        if d.settlement.map (·.hash) = some (digest (.facts facts)) ∨ q.posted = false then none
        else some { d with toLoyaltyState := settledState digest facts chain d.toLoyaltyState }

/-- The record of an exception by `_safe_reconcile`. -/
def recordFailure (e : Refusal) (d : Document) : Option Document := some { d with review := some (.processingError e) }

/-! ### Checkout -/

/-- The points that `cash_due` takes off, with the member that holds them. -/
def allocation (d : Document) : Option (Dec × Option ℕ) :=
  match d.hold with
  | some held => some (held.value, some held.member)
  | none => d.redemption.map fun r => (r.value, none)

/-- `cash_due`; `none` if it raises. -/
def cashDue (o : Outside) (d : Document) : Option Dec :=
  match allocation d with
  | none => some o.gross
  | some (value, member) =>
    if o.allowed = false ∨ o.gross ≠ o.total ∨ member.any (· ≠ o.member) = true ∨ o.gross < value then none
    else some (o.gross - value)

/-- The checkout freeze of `cash_due`. -/
def freeze (o : Outside) (d : Document) : Option Document :=
  match allocation d, cashDue o d with
  | some _, some _ => some { d with checkoutFrozen := true }
  | _, _ => none

/-- The first transaction of `confirm_points_booking`. The guards are of a read before that of `cash_due`, but the keys
they look at change under the financial lock only. -/
def confirmPointsBooking (o : Outside) (d : Document) : Option Document :=
  if o.allowed = false ∨ d.redemption ≠ none ∨ d.pointsConfirmationStarted = true then none
  else if o.booking.normalizedStatus ≠ .awaitingPayment ∨ d.hold = none ∨ cashDue o d ≠ some 0 then none
  else if unpaid o.booking = false then none
  else (freeze o d).map fun d => { d with pointsConfirmationStarted := true }

/-- The last transaction of `confirm_points_booking`, after the channel manager has rejected the stay. -/
def abandonConfirmation (d : Document) : Option Document := some { released d with pointsConfirmationStarted := false }

/-! ### Changes and receipts -/

/-- `record_refund_plan`; `completed` is the status of the modification and `funded` says that the receipts cover the
plan. -/
def recordRefundPlan (o : Outside) (completed : Bool) (plan : RefundPlan) (posted funded : Bool) (d : Document) :
    Option Document :=
  if completed = false ∨ d.refundPlans.any (·.modification == plan.modification) = true then none
  else
    let restored :=
      if plan.points ≠ 0 then restored o plan.pointsTarget ("change:" ++ plan.modification.str) posted d else some d
    match restored, funded with
    | some d, true => some { d with refundPlans := d.refundPlans ++ [plan] }
    | _, _ => none

/-- The final write of `HostawayModificationService`. -/
def finishModification (cancelled : Bool) (nightPrices : Option PricedNights) (d : Document) : Option Document :=
  if cancelled = true then some d else some { d with pricedNights := nightPrices }

/-- `record_manual_receipt` of the amount `value`. -/
def recordManualReceipt (o : Outside) (value : Dec) (attestation : Attestation) (d : Document) : Option Document :=
  let points := (d.redemption.map fun r => r.value - r.restored).getD 0
  if o.allowed = false ∨ o.booking.isActive = false ∨ o.total - o.cash - points < value then none
  else some { d with manualLodgingPrice := some attestation }

/-- `record_offline_receipt`; `intent` says that the booking has an intent, and without `lodging_only` there is no
attestation. -/
def recordOfflineReceipt (o : Outside) (intent : Bool) (attestation : Option Attestation) (d : Document) :
    Option Document :=
  if o.allowed = false ∨ o.booking.isActive = false then none
  else if intent = true ∧ (underPayment o.booking = true ∨ d.hold ≠ none ∨ d.redemption ≠ none) then none
  else some { d with manualLodgingPrice := attestation.or d.manualLodgingPrice }

/-! ### The writers and their locks -/

inductive Writer
  | hold (o : Outside) (request : String) (value : Dec)
  | release (o : Outside)
  | releaseExpiredPoints (o : Outside) (expired : Bool)
  | redeem (o : Outside) (row : Option ℕ)
  | restorePoints (o : Outside) (cumulativeValue : Dec) (evidenceReference : String) (posted : Bool)
  | reconcile (q : Reconciling)
  | recordFailure (e : Refusal)
  | freeze (o : Outside)
  | confirmPointsBooking (o : Outside)
  | abandonConfirmation
  | recordRefundPlan (o : Outside) (completed : Bool) (plan : RefundPlan) (posted funded : Bool)
  | finishModification (cancelled : Bool) (nightPrices : Option PricedNights)
  | recordManualReceipt (o : Outside) (value : Dec) (attestation : Attestation)
  | recordOfflineReceipt (o : Outside) (intent : Bool) (attestation : Option Attestation)

/-- The advisory lock `(190009, 8)`, the row of the reservation, the row of its intent. -/
inductive Lock
  | financial | row | intent
deriving DecidableEq

namespace Writer

def apply (digest : Payload → String) : Writer → Document → Option Document
  | hold o request value => Documents.hold o request value
  | release o => Documents.release o
  | releaseExpiredPoints o expired => Documents.releaseExpiredPoints o expired
  | redeem o row => Documents.redeem o row
  | restorePoints o value reference posted => Documents.restorePoints o value reference posted
  | reconcile q => Documents.reconcile digest q
  | recordFailure e => Documents.recordFailure e
  | freeze o => Documents.freeze o
  | confirmPointsBooking o => Documents.confirmPointsBooking o
  | abandonConfirmation => Documents.abandonConfirmation
  | recordRefundPlan o completed plan posted funded => Documents.recordRefundPlan o completed plan posted funded
  | finishModification cancelled nightPrices => Documents.finishModification cancelled nightPrices
  | recordManualReceipt o value attestation => Documents.recordManualReceipt o value attestation
  | recordOfflineReceipt o intent attestation => Documents.recordOfflineReceipt o intent attestation

/-- The locks taken before the document is read. -/
def early : Writer → List Lock
  | hold .. | release _ | redeem .. | restorePoints .. | reconcile _ | confirmPointsBooking _ | abandonConfirmation =>
    [.financial]
  | freeze _ => [.intent, .financial]
  | releaseExpiredPoints .. | recordRefundPlan .. | recordManualReceipt .. => [.financial, .row]
  | finishModification .. | recordOfflineReceipt .. | recordFailure _ => [.row]

/-- The locks taken after it is read. -/
def late : Writer → List Lock
  | recordOfflineReceipt _ true _ => [.intent]
  | _ => []

/-- The writers outside the financial lock. -/
def rowOnly : Writer → Bool
  | finishModification .. | recordOfflineReceipt .. | recordFailure _ => true
  | _ => false

/-- The writers that read the document without locking its row. -/
def readsUnlocked : Writer → Bool
  | hold .. | release _ | redeem .. | restorePoints .. | reconcile _ | freeze _ | confirmPointsBooking _ |
    abandonConfirmation => true
  | _ => false

end Writer

/-- The writers under their locks. -/
def protocol (digest : Payload → String) : Locks.Protocol Document Writer Lock where
  early := Writer.early
  late := Writer.late
  row := .row
  apply := Writer.apply digest

abbrev World := Locks.World Document Writer

abbrev Action := Locks.Action Writer

def World.step (digest : Payload → String) (w : World) (a : Action) : World := Locks.World.step (protocol digest) w a

/-- A transaction saves a document that it read without locking the row, and that a writer outside the financial lock
has changed since. -/
def World.overtaken (digest : Payload → String) (w : World) : Action → Bool
  | .write i =>
    match w.txs[i]? with
    | some ⟨x, .read seen since⟩ =>
      x.readsUnlocked && (w.log.drop since).any Writer.rowOnly && (x.apply digest seen).isSome && seen != w.stored
    | _ => false
  | _ => false

end Apartments.Documents
