import Apartments.Lib.Journal
import Apartments.Loyalty.Calculation
import Apartments.Loyalty.Referrals

/-!
# Posting a ledger row (`_post` and what it reads, `receipt`)
-/

namespace Apartments.Loyalty

/-- The columns of the ledger that make it a journal. -/
def columns : Journal.Columns Row ℕ Dec where
  number := Row.sequence
  account := Row.member
  amount r := r.credit - r.debit
  totalAfter := Row.programBalanceAfter
  ownAfter := Row.memberBalanceAfter

/-- `balance`. -/
def balance (w : World) (member : ℕ) : Dec := Journal.own columns member w.ledger

/-- The points a booking holds. -/
def Booking.heldValue (b : Booking) : Dec := (b.loyaltyState.hold.map (·.value)).getD 0

/-- `held_points`, over the bookings of a customer. -/
def heldPoints (w : World) (customer : User) : Dec :=
  Table.total (fun b => b.customer == some customer) Booking.heldValue w.bookings

/-- `available`. -/
def available (w : World) (member : Member) : Dec := max 0 (balance w member.pk - heldPoints w member.customer)

/-- The sequence that the next row is given. -/
def nextSequence (w : World) : ℕ := (w.ledger.map Row.sequence).foldr max 0 + 1

def groupName (n : ℕ) : String := "LSA" ++ Dec.padded 6 n

/-- `_group`. -/
def group (w : World) : String := groupName (nextSequence w)

/-- The arguments of `_post` besides the member. -/
structure Posting where
  group : String
  branch : ℕ
  credit : Dec
  debit : Dec
  allowNegative : Bool
  reservation : Option Uuid
  operationType : OperationType
  eventType : EventType
  component : Component
  event : Event
  original : Option ℕ
  counterpart : Option ℕ
  requestReference : String
  terms : Option RewardTerms
  reason : String
  evidence : Evidence
deriving DecidableEq

/-- The row that `_post` creates. -/
def postedRow (w : World) (member : Member) (treeNumber : String) (p : Posting) : Row where
  sequence := nextSequence w
  operationNumber := p.group ++ "-" ++ Dec.padded 2 p.branch
  operationGroup := p.group
  branch := p.branch
  member := member.pk
  customer := member.customer
  membershipNumber := member.number
  treeNumber := treeNumber
  credit := p.credit
  debit := p.debit
  memberBalanceAfter := balance w member.pk + p.credit - p.debit
  programBalanceAfter := Journal.whole columns w.ledger + p.credit - p.debit
  reservation := p.reservation
  operationType := p.operationType
  eventType := p.eventType
  component := p.component
  event := p.event
  original := p.original
  counterpart := p.counterpart
  requestReference := p.requestReference
  terms := p.terms
  reason := p.reason
  evidence := p.evidence

/-- `loyalty_one_posting_side`. -/
def Row.onePostingSide (r : Row) : Prop := (0 < r.credit ∧ r.debit = 0) ∨ (0 < r.debit ∧ r.credit = 0)

/-- `loyalty_negative_correction_only`. -/
def Row.negativeCorrectionOnly (r : Row) : Prop :=
  0 ≤ r.memberBalanceAfter ∨ 0 < r.credit ∨ (r.eventType = .adjust ∧ r.original ≠ none) ∨ r.eventType = .redeem

instance (r : Row) : Decidable r.onePostingSide := inferInstanceAs (Decidable (_ ∨ _))

instance (r : Row) : Decidable r.negativeCorrectionOnly := inferInstanceAs (Decidable (_ ∨ _))

/-- The value fits a `DecimalField(max_digits=16, decimal_places=2)`. -/
def fits (x : Dec) : Bool := decide (-100000000000000 < x) && decide (x < 100000000000000)

/-- `Ledger.objects.create` under the constraints of the table. -/
def createRow (w : World) (r : Row) : Except Refusal World := do
  raiseIf (fits r.memberBalanceAfter = false ∨ fits r.programBalanceAfter = false) .overflow
  raiseIf (¬ r.onePostingSide) (.integrity .onePostingSide)
  raiseIf (¬ r.negativeCorrectionOnly) (.integrity .negativeCorrectionOnly)
  raiseIf (∃ s ∈ w.ledger, s.sequence = r.sequence) (.integrity .sequence)
  raiseIf (∃ s ∈ w.ledger, s.operationNumber = r.operationNumber) (.integrity .operationNumber)
  raiseIf (∃ s ∈ w.ledger, s.operationGroup = r.operationGroup ∧ s.branch = r.branch) (.integrity .operationBranch)
  raiseIf (∃ s ∈ w.ledger, s.eventReference = r.eventReference ∧ s.member = r.member ∧ s.component = r.component)
    (.integrity .businessEvent)
  return { w with ledger := w.ledger ++ [r] }

/-- The posting corrects an earning of the same member, booking and component. -/
def correctsEarning (w : World) (member : Member) (p : Posting) : Prop :=
  ∃ original ∈ p.original.bind w.row, original.member = member.pk ∧ original.eventType = .earn ∧
    original.reservation = p.reservation ∧ original.component = p.component

instance (w : World) (member : Member) (p : Posting) : Decidable (correctsEarning w member p) :=
  inferInstanceAs (Decidable (∃ original ∈ p.original.bind w.row, _))

/-- `_post`. -/
def post (site : Site) (w : World) (member : Member) (p : Posting) : Except Refusal World := do
  raiseIf (site.participantAllowed member.customer = false) outsidePilot
  let credit ← cents p.credit
  let debit ← cents p.debit
  raiseIf (p.allowNegative = true ∧ p.eventType ≠ .adjust ∧ p.eventType ≠ .redeem)
    (.validation "الرصيد السالب مخصص للتصحيح أو صرف نقاط محجوزة سابقًا فقط.")
  raiseIf (p.allowNegative = true ∧ p.eventType = .adjust ∧ ¬ correctsEarning w member p)
    (.validation "التصحيح السالب يحتاج استحقاقًا أصليًا للحساب والحجز نفسيهما.")
  raiseIf ((0 < amount credit ↔ 0 < amount debit) ∨ (available w member < amount debit ∧ p.allowNegative = false))
    (.validation "حركة غير متوازنة أو الرصيد المتاح لا يكفي.")
  let link ← found (currentLink w member.pk) .doesNotExist
  createRow w (postedRow w member link.treeNumber { p with credit := amount credit, debit := amount debit })

/-- `receipt`: a command that was answered before is answered again without its work. -/
def receipt (digest : Payload → String) (w : World) (member : Member) (key : String) (payload : Payload)
    (work : World → Except Refusal (World × Reply)) : Except Refusal (World × Reply) := do
  raiseIf (key.length < 3 ∨ 200 < key.length) (.validation "مرجع طلب ثابت مطلوب.")
  match member.commandReceipts.lookup key with
  | some old =>
    raiseIf (old.hash ≠ digest payload) (.validation "استعمل مرجع الطلب ببياناته الأصلية فقط.")
    return (w, old.result)
  | none =>
    let (w, result) ← work w
    return (w.modifyMember member.pk fun m =>
      { m with commandReceipts := (key, ⟨digest payload, result⟩) :: m.commandReceipts }, result)

end Apartments.Loyalty
