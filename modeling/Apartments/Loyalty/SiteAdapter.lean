import Apartments.Loyalty.Contract
import Mathlib.Data.List.Sort

/-!
# The facts of a booking (`loyalty/site_adapter.py`)

`booking_facts` reads what a stay cost, what was paid and returned for it and how much of that earns rewards, or names what
stands in the way. The price comes from the quote, from the latest change, from what the owner attested or from a quote of one
line; a cancelled stay has the price of its settlement. Amounts are the decimals behind the texts of the source.
-/

namespace Apartments.SiteAdapter

open Loyalty Payments Hostaway

/-- `quantize(.., rounding=ROUND_DOWN)`. -/
def quantizeDown (places : ℕ) (x : Dec) : Dec :=
  if 0 ≤ x then ⌊x * 10 ^ places⌋ / 10 ^ places else -(⌊-x * 10 ^ places⌋ / 10 ^ places)

/-! ### The price breakdown -/

/-- `part["total"]`, as `Decimal(str(..))` reads it. -/
inductive PartTotal
  | missing
  | malformed
  | special
  | finite (value : Dec)
deriving DecidableEq

/-- A line of a price breakdown; `includedInTotal` says that the key is `true`. -/
structure Part where
  type : Option String
  includedInTotal : Bool
  total : PartTotal
deriving DecidableEq

/-- A price breakdown: `none` for what is no list, and among its lines for what is no object. -/
abbrev Components := Option (List (Option Part))

/-- The answer for what the `except` clause catches, but for a `ValueError`. -/
def invalidFacts : String := "financial_facts_invalid"

def PartTotal.read : PartTotal → Except String Dec
  | .missing | .malformed => .error invalidFacts
  | .special => .error "price_breakdown_invalid"
  | .finite value => .ok value

structure Sums where
  sums : Dec
  lodging : Dec
  found_ : Bool
deriving DecidableEq

/-- A round of the loop of `_lodging`. -/
def addPart (acc : Sums) : Option Part → Except String Sums
  | none => .error "price_breakdown_unverified"
  | some part => do
    raiseIf (part.includedInTotal = false) "price_breakdown_unverified"
    let value ← part.total.read
    raiseIf (value < 0) "discount_allocation_required"
    return if part.type = some "baseRate" then ⟨acc.sums + value, acc.lodging + value, true⟩
      else { acc with sums := acc.sums + value }

/-- `_lodging`. -/
def lodging (components : Components) (total : Dec) : Except String Dec := do
  let parts ← found components "price_breakdown_missing"
  raiseIf (parts = []) "price_breakdown_missing"
  let acc ← parts.foldlM addPart ⟨0, 0, false⟩
  raiseIf (acc.sums ≠ total ∨ acc.found_ = false ∨ ¬(0 ≤ acc.lodging ∧ acc.lodging ≤ total)) "price_breakdown_mismatch"
  return acc.lodging

/-! ### The records -/

structure Intent extends SnapshotIntent where
  pk : Uuid
  customer : Option User
  /-- The components of its quote. -/
  components : Components
  /-- `final_total_price` of the manual booking draft of the quote. -/
  manualDraft : Option Dec
deriving DecidableEq

/-- `loyalty_state["arrival"]`, or a scheduled arrival in its place. -/
structure Arrival where
  at_ : Option Time
  naive : Bool
  reference : String
deriving DecidableEq

/-- `loyalty_state["scheduled_accrual"]`; `at_` is its time where that is one with a time zone. -/
structure Scheduled where
  policy : String
  at_ : Option Time
  reference : String
deriving DecidableEq

/-- What is read of `loyalty_state["settlement"]["facts"]`; `offered` says that an offer is among them. -/
structure SettledFacts where
  total : Dec
  offered : Bool
deriving DecidableEq

/-- The booking with the rows and the keys of its document that are read; `departure` is `consumed_cash_lodging` of the
departure settlement and `manualLodging` the total of the attested lodging price. -/
structure Record where
  board : Board
  createdAt : Time
  timeZoneName : Option String
  intent : Option Intent
  payments : List PaymentAttempt
  obligations : List RefundObligation
  /-- `quote_snapshot["components"]` of a change. -/
  snapshotComponents : Uuid → Components
  arrival : Option Arrival
  scheduledAccrual : Option Scheduled
  redemption : Option Redemption
  settlement : Option SettledFacts
  departure : Option Dec
  manualLodging : Option Dec

/-- The quote of an offer; it is signed for a base with a reward. -/
structure OfferQuote where
  total : Dec
  base : Dec
  reward : Dec
  fingerprint : String
  base_nonneg : 0 ≤ base
deriving DecidableEq

/-- What `authorized` answers. -/
structure Grant where
  operator : User
  beneficiary : User
  requestId : String
  issuedAt : Time
  quote : OfferQuote
deriving DecidableEq

structure Membership where
  active : Bool
  consentAt : Time
  termsVersion : String
deriving DecidableEq

/-- An entry of `facts["payments"]`. -/
structure PaymentFact where
  id : Uuid
  providerId : Option String
  at_ : Option Time
  amount : Dec
deriving DecidableEq

structure BookingFacts where
  base : Dec
  total : Dec
  cash : Dec
  refunded : Dec
  points : Dec
  checkIn : Time
  checkOut : Time
  arrival : Arrival
  consent : Option Time
  termsVersion : Option String
  cancelled : Bool
  payments : List PaymentFact
  refunds : List Uuid
  modification : Option Uuid
  components : Components
  fx : Option Fx.AuditSnapshot
  offer : Option Grant
  acceptanceScope : Bool
  accrualEligibility : Option Scheduled
  stayException : Bool
  priceAdapter : Bool
deriving DecidableEq

/-- What the settings, the clock and the other tables answer. -/
structure Scope where
  now : Time
  launchAt : Option Time
  policyEnabled : Bool
  bookingAllowed : Bool
  historicalAwardAllowed : Bool
  stayExceptionAllowed : Bool
  authorized : Option Grant
  membership : User → Option Membership
  zones : Zones
  isoformat : Time → String
  fingerprint : BookingFacts → String
  snapshots : Uuid → Option Fx.AuditSnapshot

/-- How `booking_facts` ends without facts. -/
inductive Halt
  | blocked (reason : String)
  | raised (e : Refusal)
deriving DecidableEq

/-! ### What the record says -/

section
variable (s : Scope) (r : Record)

def Record.reservation : Reservation := r.board.reservation

def Record.terms : StayTerms := stayTerms r.reservation r.timeZoneName

def Record.cancelled : Bool := r.reservation.normalizedStatus == .cancelled

/-- `Reservation.ACTIVE_STATUSES`. -/
def Record.active : Bool := r.reservation.normalizedStatus == .confirmed || r.reservation.normalizedStatus == .modified

/-- The statuses of a payment that was collected. -/
def collected (p : PaymentAttempt) : Bool :=
  p.status == .succeeded || p.status == .partiallyRefunded || p.status == .refunded

/-- The verified payments of the intent, in the order of `order_by("created_at", "pk")`. -/
def receipts (i : Intent) : List PaymentAttempt :=
  (r.payments.filter fun p => p.bookingIntent == i.pk && p.verifiedAt.isSome && collected p).insertionSort fun p q =>
    p.createdAt < q.createdAt ∨ p.createdAt = q.createdAt ∧ p.pk.str ≤ q.pk.str

/-- The transferred refunds, in the order of `order_by("pk")`. -/
def transferred : List RefundObligation :=
  (r.obligations.filter fun o => o.status == .transferred).insertionSort fun o o' => o.pk.str ≤ o'.pk.str

def cash (i : Intent) : Dec := ((receipts r i).map (·.amount)).sum

def returned : Dec := ((transferred r).map (·.amount)).sum

/-- The points that were used for the stay and did not come back. -/
def usedPoints : Dec := r.redemption.elim 0 fun x => x.value - x.restored

/-- `_contract`. -/
def contractOf (i : Intent) : Except Refusal (Dec × Dec) :=
  contract (fun pk => snapshotCheck (s.snapshots pk)) i.toSnapshotIntent.funded r.board

/-- `to_sar`; what it raises is no `ValueError`. -/
def inSar (i : Intent) (value : Dec) : Except String Dec :=
  (toSar r.terms (contractOf s r i) value).mapError fun _ => invalidFacts

/-- `stay_times`. -/
def stayTimes : Except String (Time × Time) := do
  let name ← found r.timeZoneName invalidFacts
  raiseIf (name = "") invalidFacts
  let zone ← found (s.zones.info name) invalidFacts
  return (zone.moment r.reservation.checkIn 15, zone.moment r.reservation.checkOut 12)

def accrualPolicy : String := "paid-checkin-1500-or-admin-v1"

/-- `scheduled_eligibility`. -/
def scheduledEligibility : Except String (Option Scheduled) :=
  match r.scheduledAccrual.filter fun p => p.policy == accrualPolicy && p.at_.any (· ≤ s.now) with
  | some previous => .ok (some previous)
  | none =>
    if s.policyEnabled = false ∨ r.active = false then .ok none
    else do
      let (start, finish) ← stayTimes s r
      return if start ≤ s.now ∧ s.now < finish then
          some ⟨accrualPolicy, some start, "scheduled-checkin:" ++ r.reservation.pk.str ++ ":" ++ s.isoformat start⟩
        else none

/-- `effective_arrival`. -/
def effectiveArrival : Except String (Option Arrival) := do
  let scheduled ← scheduledEligibility s r
  let timed := scheduled.map fun p => (⟨p.at_, false, p.reference⟩ : Arrival)
  return match r.arrival, timed with
    | some manual, some timed =>
      if manual.naive = false ∧ manual.at_.any (fun m => timed.at_.any (· < m)) = true then some timed else some manual
    | some manual, none => some manual
    | none, timed => timed

/-! ### What earns rewards -/

/-- The latest completed change of the dates or the price. -/
def latestChange : Option ModificationRequest :=
  Table.first (fun m n => decide (completionKey n < completionKey m)) (r.board.requests.filter isCompletedChange)

/-- The price is the one that the owner put in, with the receipt of the owner attesting it. -/
def attested (i : Intent) : Bool :=
  r.reservation.currency == "SAR" && i.manualDraft.isSome && (receipts r i).any (·.provider == "manual") &&
    r.manualLodging == some r.reservation.totalPrice

/-- The price breakdown that counts, with the change that it is from. -/
def breakdown (i : Intent) : Except String (Components × Option Uuid) :=
  match latestChange r with
  | some m => do
    raiseIf (m.newCheckIn ≠ some r.reservation.checkIn ∨ m.newCheckOut ≠ some r.reservation.checkOut ∨
      m.newTotal ≠ some r.reservation.totalPrice) "modification_snapshot_mismatch"
    return (r.snapshotComponents m.pk, some m.pk)
  | none =>
    if i.totalPrice ≠ r.reservation.totalPrice ∨ attested r i = true then do
      raiseIf (i.manualDraft ≠ some r.reservation.totalPrice) "manual_price_breakdown_required"
      raiseIf (r.manualLodging ≠ some r.reservation.totalPrice) "manual_price_breakdown_required"
      return (some [some ⟨some "baseRate", true, .finite r.reservation.totalPrice⟩], none)
    else .ok (i.components, none)

/-- The one line of an accommodation quote. -/
def legacyTrialPrice (components : Components) (modification : Option Uuid) : Option Part :=
  match components with
  | some [some part] =>
    if s.stayExceptionAllowed = true ∧ modification = none ∧ part.type = some "accommodation" then some part else none
  | _ => none

/-- `pricing_components`. -/
def pricingComponents (components : Components) (modification : Option Uuid) : Components :=
  match legacyTrialPrice s components modification with
  | some part => some [some { part with type := some "baseRate" }]
  | none => components

/-- The total of a stay that is not cancelled and its lodging part, in SAR. -/
def stayPrice (i : Intent) (components : Components) : Except String (Dec × Dec) := do
  let part ← lodging components r.reservation.totalPrice
  if r.reservation.currency = "SAR" then .ok (r.reservation.totalPrice, part)
  else do
    let gross ← inSar s r i r.reservation.totalPrice
    let part ← inSar s r i part
    return (gross, part)

/-- The total and the base of a stay that is not cancelled. -/
def stayBase (i : Intent) (components : Components) : Except String (Dec × Dec) := do
  let (gross, part) ← stayPrice s r i components
  raiseIf (Dec.quantizeEven 2 gross ≠ gross) "booking_rounding_allocation_required"
  raiseIf (cash r i - returned r + usedPoints r < gross) "verified_payment_incomplete"
  raiseIf (usedPoints r ≠ 0 ∧ part ≠ gross) "mixed_fee_allocation_required"
  return (gross, quantizeDown 2 (min (max (part - usedPoints r) 0) (cash r i - returned r)))

/-- The total and the base of a cancelled stay. -/
def cancelledBase : Except String (Dec × Dec) := do
  let arrived ← effectiveArrival s r
  raiseIf (arrived.isSome = true ∧ r.departure = none) "departure_refund_evidence_required"
  let previous ← found r.settlement "cancelled_without_accrual"
  return (previous.total, r.departure.getD 0)

/-- The total and the base of the booking, before the cap of an offer. -/
def fullBase (i : Intent) (components : Components) : Except String (Dec × Dec) :=
  if r.cancelled then cancelledBase s r else stayBase s r i components

/-- The checks of the payments and the refunds. -/
def checkMoney (i : Intent) : Except String Unit := do
  raiseIf ((receipts r i).any (fun p => p.verifiedAt.any (s.now < ·) || p.currency != "SAR" ||
    p.providerPaymentId == none || p.providerPaymentId == some "") = true) "payment_receipt_reconciliation_required"
  raiseIf ((transferred r).any (fun o => o.currency != "SAR" || o.transferredAt.isNone) = true)
    "refund_currency_reconciliation_required"
  raiseIf (cash r i < returned r) "refund_exceeds_verified_cash"
  raiseIf ((receipts r i).any (·.status == .refunded) = true ∧ transferred r = []) "refund_receipt_missing"
  raiseIf (r.cancelled = false ∧ r.active = false) "booking_not_confirmed"

end

/-! ### `booking_facts` -/

/-- What `booking_facts` knows once the booking is in the program. -/
structure Standing where
  intent : Intent
  preview : Bool
  offer : Option Grant
  member : Option Membership
deriving DecidableEq

def Standing.past (t : Standing) : Bool := t.preview || t.offer.isSome

section
variable (s : Scope) (r : Record)

/-- The checks before the `try` block. -/
def standing (preview : Bool) : Except Halt Standing := do
  raiseIf (s.bookingAllowed = false) (.blocked "outside_pilot_scope")
  have offer := if preview then none else s.authorized
  raiseIf (r.reservation.sourceType ≠ .directWebsite) (.blocked "outside_program_scope")
  let intent ← found r.intent (.blocked "outside_program_scope")
  raiseIf (intent.customer = none ∧ preview = false ∧ offer = none) (.blocked "outside_program_scope")
  let launch ← found s.launchAt (.raised (.validation "تاريخ إطلاق البرنامج غير مثبت."))
  raiseIf (r.createdAt < launch ∧ s.historicalAwardAllowed = false ∧ preview = false ∧ offer = none)
    (.blocked "outside_program_scope")
  have member := match offer with
    | some offer => s.membership offer.beneficiary
    | none => intent.customer.bind s.membership
  raiseIf (preview = false ∧ member.all (!·.active) = true) (.blocked "membership_required")
  return ⟨intent, preview, offer, member⟩

/-- The scheduled arrival of a booking without one that was attended to. -/
def unattended : Except String (Option Scheduled) :=
  if r.arrival.isSome then .ok none else scheduledEligibility s r

/-- The checks of the arrival, the dates and the consent; the scheduled arrival and the times of the stay. -/
def checkStay (t : Standing) : Except String (Option Scheduled × Time × Time) := do
  let scheduled ← unattended s r
  raiseIf (r.arrival = none ∧ scheduled = none ∧ s.stayExceptionAllowed = false ∧ t.past = false) "arrival_required"
  let (start, finish) ← stayTimes s r
  raiseIf (t.past = true ∧ (r.active = false ∨ s.now < finish) ∧ ¬(t.offer.isSome = true ∧ r.settlement.isSome = true))
    "past_completed_stay_required"
  raiseIf (r.arrival.any (fun a => a.naive || a.at_.any (s.now < ·)) = true ∨
      t.member.any (fun m => s.now < m.consentAt) = true ∨
      t.member.any (fun m => finish < m.consentAt) = true ∧ s.historicalAwardAllowed = false ∧ t.past = false)
    "stay_or_consent_not_eligible"
  return (scheduled, start, finish)

/-- The evidence for the arrival. -/
def arrivalFact (t : Standing) (scheduled : Option Scheduled) : Arrival :=
  r.arrival.getD ⟨none, false, match scheduled with
    | some p => p.reference
    | none => if t.past then "owner-past-stay-invitation" else "explicit-owner-test-stay-exception"⟩

/-- The cap of an offer. -/
def withOffer (offer : Option Grant) (f : BookingFacts) : Except String BookingFacts :=
  match offer with
  | none => .ok f
  | some offer => do
    raiseIf (r.settlement.all (!·.offered) = true ∧
      s.fingerprint { f with consent := none, termsVersion := none } ≠ offer.quote.fingerprint)
      "past_offer_financial_facts_changed"
    return { f with base := min f.base offer.quote.base, offer := some offer }

/-- The `try` block. -/
def facts (t : Standing) : Except String BookingFacts := do
  let (scheduled, start, finish) ← checkStay s r t
  checkMoney s r t.intent
  let (components, modification) ← breakdown r t.intent
  let (gross, base) ← fullBase s r t.intent (pricingComponents s components modification)
  raiseIf (cash r t.intent = 0 ∧ usedPoints r = 0 ∧ r.cancelled = false) "verified_payment_required"
  let f ← withOffer s r t.offer
    { base := base
      total := gross
      cash := Dec.quantizeEven 2 (cash r t.intent)
      refunded := Dec.quantizeEven 2 (returned r)
      points := Dec.quantizeEven 2 (usedPoints r)
      checkIn := start
      checkOut := finish
      arrival := arrivalFact r t scheduled
      consent := if t.preview then none else t.member.map (·.consentAt)
      termsVersion := if t.preview then none else t.member.map (·.termsVersion)
      cancelled := r.cancelled
      payments := (receipts r t.intent).map fun p => ⟨p.pk, p.providerPaymentId, p.verifiedAt, p.amount⟩
      refunds := (transferred r).map (·.pk)
      modification := modification
      components := components
      fx := t.intent.exchangeRateSnapshot
      offer := none
      acceptanceScope := false
      accrualEligibility := none
      stayException := false
      priceAdapter := false }
  return { f with
    acceptanceScope := s.historicalAwardAllowed && !t.past
    accrualEligibility := scheduled
    stayException := s.stayExceptionAllowed && r.arrival.isNone && scheduled.isNone
    priceAdapter := !r.cancelled && (legacyTrialPrice s components modification).isSome }

/-- `booking_facts`. -/
def bookingFacts (preview : Bool) : Except Halt BookingFacts := do
  let t ← standing s r preview
  (facts s r t).mapError .blocked

end

end Apartments.SiteAdapter
