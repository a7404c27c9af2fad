import Apartments.Lib.Outcome
import Apartments.Loyalty.Models

/-!
# What the site answers a loyalty operation

`Site` holds the settings, the clock and the reads outside the loyalty tables. An answer that depends on the site
records is a function of the tables, so that a run may be given any answers at any moment; of `booking_facts` the
financial part is such an answer, and the scope, the offer and the membership are checked below as the source does.
-/

namespace Apartments.Loyalty

structure Site where
  enabled : Bool
  launchAt : Option Time
  now : Time
  pilotOnly : Bool
  operationsOwner : User → Bool
  participantAllowed : User → Bool
  isAuthenticated : User → Bool
  isActive : User → Bool
  accountVerified : User → Bool
  termsIssued : String → String → String → Bool
  phones : User → List String
  invitationEligible : World → Member → Bool
  bookingAllowed : World → Booking → Bool
  historicalAwardAllowed : World → Booking → Bool
  paidPhoneAccount : World → Booking → Option User
  offerSent : World → Booking → Offer → Bool
  phoneHolder : World → Booking → Offer → Option User
  financialFacts : World → Booking → Option OfferFacts → Except String Facts
  offerQuoted : World → Booking → Bool
  totalSar : World → Booking → Except String Dec
  stayEnd : Booking → Except String Time
  effectiveArrival : World → Booking → Bool
  skippedKeys : ℕ

/-- A read of the site that raises does so with a text of its own. -/
def siteRead {α : Type} (answer : Except String α) : Except Refusal α := answer.mapError .validation

section
variable (site : Site) (w : World)

def outsidePilot : Refusal := .permission "الحساب خارج نطاق التجربة الخاصة."

/-- `posting_transaction`. -/
def postingTransaction : Except Refusal Unit := do
  raiseIf (site.enabled = false) (.validation "برنامج الولاء غير مفعّل.")
  raiseIf (site.launchAt = none) (.validation "تاريخ إطلاق البرنامج غير مثبت.")

/-- `member_for`. -/
def memberFor (user : User) (active : Bool) : Except Refusal Member := do
  raiseIf (site.participantAllowed user = false) outsidePilot
  raiseIf (site.isAuthenticated user = false ∨ site.isActive user = false) (.permission "سجل الدخول بحسابك.")
  let member ← found (w.memberOf user) (.validation "عضوية غير متاحة.")
  raiseIf (active = true ∧ member.status ≠ .active) (.validation "عضوية غير متاحة.")
  return member

/-- The booking was made before the launch, and no award for it was ordered. -/
def beforeLaunch (b : Booking) : Bool :=
  (site.launchAt.any fun launch => b.createdAt < launch) && !site.historicalAwardAllowed w b

/-- `_booking`. -/
def bookingOf (user : User) (pk : Uuid) : Except Refusal Booking := do
  let b ← found (w.booking pk) .doesNotExist
  raiseIf (b.customer ≠ some user) (.permission "الحجز لا يخص هذا الحساب.")
  raiseIf (site.bookingAllowed w b = false) (.permission "الحجز خارج نطاق التجربة الخاصة.")
  raiseIf (b.sourceType ≠ .directWebsite) (.validation "الحجز ليس من موقعنا أو إدارة الموقع.")
  raiseIf (beforeLaunch site w b = true) (.validation "الحجوزات السابقة للإطلاق لا تدخل في البرنامج.")
  return b

/-- `attach_paid_phone_account`: the booking object and the tables after it. -/
def attachPaidPhoneAccount (b : Booking) : World × Booking :=
  match if b.customer = none then site.paidPhoneAccount w b else none with
  | some user =>
    (w.setCustomer b.pk user,
      { b with customer := some user, loyaltyState := { b.loyaltyState with identityMatch := some user } })
  | none => (w, b)

/-! ### Facts -/

/-- The reward that was posted under the offer. -/
def creditedOffer (b : Booking) (o : Offer) : Option Row :=
  w.ledger.find? fun r =>
    r.reservation == some b.pk && r.eventType == .earn && r.component == .loyalty &&
      match r.evidence with
      | .facts facts => facts.offer.any fun offer => offer.requestId == o.requestId
      | _ => false

/-- The booking has no customer yet, or this one. -/
def Booking.mayBelongTo (b : Booking) (user : User) : Bool := b.customer == none || b.customer == some user

/-- `authorized`, as the facts record it. -/
def authorized (b : Booking) : Option OfferFacts :=
  match b.loyaltyState.offer with
  | none => none
  | some o =>
    if site.offerSent w b o = false then none
    else
      match creditedOffer w b o with
      | some credited => if b.mayBelongTo credited.customer then some ⟨o.requestId, credited.customer⟩ else none
      | none =>
        match site.phoneHolder w b o with
        | none => none
        | some user =>
          if (w.memberOf user).all fun m => m.status != .active then none
          else if o.customer.all (· == user) && b.mayBelongTo user then some ⟨o.requestId, user⟩
          else none

/-- The account that the facts speak of. -/
def beneficiary (b : Booking) (offer : Option OfferFacts) : Option User :=
  match offer with
  | some o => some o.beneficiary
  | none => b.customer

/-- `booking_facts`; the error is the blocker. -/
def bookingFacts (b : Booking) : Except String Facts :=
  let offer := authorized site w b
  if site.bookingAllowed w b = false then .error "outside_pilot_scope"
  else if b.sourceType ≠ .directWebsite ∨ beneficiary b offer = none ∨
      (beforeLaunch site w b = true ∧ offer = none) then .error "outside_program_scope"
  else if ((beneficiary b offer).bind w.memberOf).all fun m => m.status != .active then .error "membership_required"
  else
    match site.financialFacts w b offer with
    | .error blocker => .error blocker
    | .ok facts => .ok { facts with offer := offer }

end

end Apartments.Loyalty
