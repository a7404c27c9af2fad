import Apartments.Loyalty.Posting

/-!
# The loyalty operations (`loyalty/services.py`)

Every function below runs inside `posting_transaction`: it returns the tables it leaves, or the exception that
rolls it back. `digest` is the hash of a payload.
-/

namespace Apartments.Loyalty

/-- The member has earned or was corrected for this booking and component. -/
def isReward (reservation : Uuid) (member : ℕ) (component : Component) (r : Row) : Bool :=
  r.reservation == some reservation && r.member == member && r.component == component &&
    (r.eventType == .earn || r.eventType == .adjust)

/-- What the rewards of a booking add up to. -/
def rewarded (w : World) (reservation : Uuid) (member : ℕ) (component : Component) : Dec :=
  Table.total (isReward reservation member component) (fun r => r.credit - r.debit) w.ledger

/-- The first earning of the booking and component. -/
def firstEarning (w : World) (reservation : Uuid) (member : ℕ) (component : Component) : Option Row :=
  w.ledger.find? fun r => isReward reservation member component r && r.eventType == .earn

section
variable (digest : Payload → String) (site : Site)

/-! ### Settling a booking -/

/-- What a settlement is made of. -/
structure Settling where
  booking : Booking
  owner : Member
  chain : List Member
  facts : Facts
  revision : ℕ
  group : String

namespace Settling

variable (s : Settling)

def creditReason : String :=
  if s.facts.offer.isSome then "مكافأة الإقامة السابقة بدعوة المالك بعد الانضمام وتوثيق الجوال"
  else if s.facts.stayException then "استحقاق اختباري مصرح به دون إقامة فعلية"
  else if s.facts.accrualEligibility.isSome then "استحقاق الإقامة بعد السداد وحلول موعد الاستحقاق التلقائي"
  else "استحقاق الإقامة بعد القبض وتوثيق الإدارة للوصول والموافقة"

def terms (share : Share Member) : RewardTerms where
  bookingTotal := s.facts.total
  eligibleLodging := s.facts.base
  verifiedCash := s.facts.cash
  refundedCash := s.facts.refunded
  pointsUsed := s.facts.points
  settlementRevision := s.revision
  directInviter := s.chain.head?.map (·.pk)
  beneficiaryDistance := share.distance
  olderInviterCount := s.chain.length - 1
  allocationNumerator := share.numerator
  allocationDenominator := share.denominator
  ratePercent := share.rate

/-- The fields a settlement posts on every side. -/
def posting (share : Share Member) (branch : ℕ) (eventType : EventType) (credit debit : Dec)
    (original : Option ℕ) (reason : String) : Posting where
  group := s.group
  branch := branch
  credit := credit
  debit := debit
  allowNegative := decide (0 < debit)
  reservation := some s.booking.pk
  operationType := share.kind.operationType
  eventType := eventType
  component := share.kind.component
  event := .settle s.booking.pk s.revision
  original := original
  counterpart := none
  requestReference := ""
  terms := some (s.terms share)
  reason := reason
  evidence := .facts s.facts

end Settling

/-- What a share is worth to the member now. -/
def target (member : Member) (cents : ℕ) : Dec := if member.status = .active then amount cents else 0

/-- One round of the loop of `reconcile`: the tables and the last branch. -/
def settleShare (s : Settling) (w : World) (branch : ℕ) (share : Share Member) : Except Refusal (World × ℕ) := do
  let member ← found (w.member share.member.pk) .doesNotExist
  let target := target member share.cents
  let current := rewarded w s.booking.pk member.pk share.kind.component
  let original := firstEarning w s.booking.pk member.pk share.kind.component
  if current < target then
    let w ← post site w member <| s.posting share (branch + 1) (if original.isSome then .adjust else .earn)
      (target - current) 0 (original.map (·.sequence)) s.creditReason
    return (w, branch + 1)
  else if target < current then
    let original ← found original (.validation "التصحيح يحتاج حركة أصلية.")
    let w ← post site w member <| s.posting share (branch + 1) .adjust 0 (current - target)
      (some original.sequence) "تصحيح الاستحقاق بعد تعديل أو إلغاء الإقامة؛ قد يصبح الرصيد سالبًا"
    return (w, branch + 1)
  else return (w, branch)

def settleShares (s : Settling) : World → ℕ → List (Share Member) → Except Refusal (World × ℕ)
  | w, branch, [] => .ok (w, branch)
  | w, branch, share :: plan => do
    let (w, branch) ← settleShare site s w branch share
    settleShares s w branch plan

/-- What `reconcile` answers. -/
inductive Reconciliation
  | disabled
  | outsidePilotScope
  | blocked (reason : String)
  | unchanged
  | settled (movements : ℕ) (base : Dec)
deriving DecidableEq

/-- The members of `in_bulk`, each once. -/
def inBulk (w : World) (keys : List ℕ) : List Member := keys.dedup.filterMap w.member

/-- The inviters that a settlement rewards. -/
def settledChain (w : World) (booking : Booking) (owner : Member) (facts : Facts) : Except Refusal (List Member) :=
  if facts.offer.isSome then .ok []
  else
    match booking.loyaltyState.referralChain with
    | none => ancestors w owner
    | some fixed => do
      raiseIf ((inBulk w fixed).length ≠ fixed.length ∨ owner.pk ∈ fixed)
        (.validation "سلسلة استحقاق الحجز غير مكتملة.")
      return inBulk w fixed

def nextRevision (state : LoyaltyState) : ℕ := (state.settlement.map (·.revision)).getD 0 + 1

/-- The state that a settlement leaves. -/
def settledState (facts : Facts) (chain : List Member) (state : LoyaltyState) : LoyaltyState :=
  { state with
    scheduledAccrual := facts.accrualEligibility.or state.scheduledAccrual
    review := none
    settlement := some ⟨nextRevision state, digest (.facts facts), facts⟩
    referralChain := some (chain.map (·.pk)) }

/-- `reconcile`, once the facts are read. -/
def settle (w : World) (booking : Booking) (facts : Facts) : Except Refusal (World × Reconciliation) := do
  let owner ← found ((beneficiary booking facts.offer).bind w.memberOf) .doesNotExist
  let chain ← settledChain w booking owner facts
  if booking.loyaltyState.settlement.map (·.hash) = some (digest (.facts facts)) then return (w, .unchanged)
  else
    let plan ← rewardPlan facts.base owner chain
    let settling : Settling := ⟨booking, owner, chain, facts, nextRevision booking.loyaltyState, group w⟩
    let (w, movements) ← settleShares site settling w 0 plan
    return (w.saveBooking { booking with loyaltyState := settledState digest facts chain booking.loyaltyState },
      .settled movements facts.base)

/-- `reconcile`. -/
def reconcile (pk : Uuid) (w : World) : Except Refusal (World × Reconciliation) :=
  if site.enabled = false then .ok (w, .disabled)
  else do
    postingTransaction site
    let loaded ← found (w.booking pk) .doesNotExist
    let (w, booking) := attachPaidPhoneAccount site w loaded
    if site.bookingAllowed w booking = false then return (w, .outsidePilotScope)
    else
      match bookingFacts site w booking with
      | .error blocker =>
        let state := { booking.loyaltyState with review := some (.blocked blocker) }
        return (w.saveBooking { booking with loyaltyState := state }, .blocked blocker)
      | .ok facts => settle digest site w booking facts

/-! ### Points commands -/

/-- The work of `transfer`. -/
def transferWork (sender : Member) (reference recipientNumber : String) (value : Dec) (w : World) :
    Except Refusal (World × Reply) := do
  let recipient ← found (w.members.find? fun m => m.number == recipientNumber && m.status == .active) .doesNotExist
  raiseIf (site.participantAllowed recipient.customer = false) (.permission "")
  raiseIf (site.isActive recipient.customer = false) (.validation "حساب المستلم غير مؤهل لاستلام النقاط.")
  let n ← cents value
  raiseIf (amount n ≤ 0 ∨ sender.pk = recipient.pk ∨ available w sender < amount n)
    (.validation "تحويل غير صالح أو الرصيد لا يكفي.")
  let fields : Posting := {
    group := group w
    branch := 1
    credit := 0
    debit := amount n
    allowNegative := false
    reservation := none
    operationType := .transfer
    eventType := .transfer
    component := .transferOut
    event := .transfer sender.pk reference
    original := none
    counterpart := some recipient.pk
    requestReference := reference
    terms := none
    reason := "تحويل نقاط"
    evidence := .requestHash (digest (.transferred recipientNumber (amount n))) }
  let sent ← post site w sender fields
  let received ← post site sent recipient { fields with
    branch := 2, credit := amount n, debit := 0, component := .transferIn, counterpart := some sender.pk }
  return (received, .transfer fields.group (amount n))

/-- `transfer`. -/
def transfer (user : User) (reference recipientNumber : String) (value : Dec) (w : World) :
    Except Refusal (World × Reply) := do
  postingTransaction site
  let sender ← memberFor site w user true
  receipt digest w sender reference (.transfer recipientNumber value)
    (transferWork digest site sender reference recipientNumber value)

/-- No charge of the booking is under way or was collected. -/
def unpaid (b : Booking) : Bool := b.attempts.all fun s => s == .failed || s == .cancelled || s == .expired

/-- The work of `hold`. -/
def holdWork (user : User) (member : Member) (reference : String) (reservation : Uuid) (value : Dec) (w : World) :
    Except Refusal (World × Reply) := do
  let booking ← bookingOf site w user reservation
  raiseIf ((booking.normalizedStatus ≠ .awaitingPayment ∧ booking.normalizedStatus ≠ .readyForHostaway) ∨
    booking.loyaltyState.hold ≠ none ∨ booking.loyaltyState.redemption ≠ none)
    (.validation "هذا الحجز غير متاح لحجز نقاط جديد.")
  raiseIf (unpaid booking = false)
    (.validation "اختر النقاط قبل إنشاء عملية الدفع؛ توجد عملية قائمة لهذا الحجز.")
  let n ← cents value
  let total ← siteRead (site.totalSar w booking)
  raiseIf (amount n ≤ 0 ∨ total < amount n ∨ available w member < amount n)
    (.validation "قيمة النقاط غير متاحة لهذا الحجز.")
  let state := { booking.loyaltyState with hold := some ⟨amount n, member.pk, reference⟩ }
  return (w.saveBooking { booking with loyaltyState := state }, .hold (amount n) booking.pk)

/-- `hold`. -/
def hold (user : User) (reference : String) (reservation : Uuid) (value : Dec) (w : World) :
    Except Refusal (World × Reply) := do
  postingTransaction site
  let member ← memberFor site w user true
  receipt digest w member reference (.hold reservation value) (holdWork site user member reference reservation value)

/-- The payment statuses that `release_allowed` stops at. -/
def underPayment (b : Booking) : Bool :=
  b.attempts.any fun s => s == .created || s == .pending || s == .unknown || s == .review || s == .succeeded ||
    s == .partiallyRefunded || s == .refunded

/-- `release_allowed`. -/
def releaseAllowed (b : Booking) : Except Refusal Unit := do
  raiseIf (b.loyaltyState.pointsConfirmationStarted = true)
    (.validation "لا تحرر النقاط قبل حسم نتيجة تأكيد الحجز.")
  raiseIf (b.loyaltyState.checkoutFrozen = true ∧ underPayment b = true)
    (.validation "لا تحرر النقاط بينما عملية الدفع قائمة أو تم قبضها.")

/-- The work of `release`. -/
def releaseWork (user : User) (reservation : Uuid) (w : World) : Except Refusal (World × Reply) := do
  let booking ← bookingOf site w user reservation
  releaseAllowed booking
  let state := { booking.loyaltyState with hold := none, checkoutFrozen := false }
  return (w.saveBooking { booking with loyaltyState := state }, .value booking.heldValue)

/-- `release`. -/
def release (user : User) (reference : String) (reservation : Uuid) (w : World) : Except Refusal (World × Reply) := do
  postingTransaction site
  let member ← memberFor site w user true
  receipt digest w member reference (.release reservation) (releaseWork site user reservation)

/-- The debit of `redeem`. -/
def redeemPosting (w : World) (pk : Uuid) (reference : String) (value : Dec) : Posting where
  group := group w
  branch := 1
  credit := 0
  debit := value
  allowNegative := true
  reservation := some pk
  operationType := .transfer
  eventType := .redeem
  component := .redemption
  event := .redeem pk
  original := none
  counterpart := none
  requestReference := reference
  terms := none
  reason := "استخدام نقاط محجوزة في حجز مؤكد"
  evidence := .none

/-- The work of `redeem`. -/
def redeemWork (user : User) (member : Member) (reference : String) (reservation : Uuid) (w : World) :
    Except Refusal (World × Reply) := do
  let booking ← bookingOf site w user reservation
  match booking.loyaltyState.redemption with
  | some redemption => return (w, .value redemption.value)
  | none =>
    let held ← found (booking.loyaltyState.hold.filter fun h => booking.isActive && h.member == member.pk)
      (.validation "يلزم حجز مؤكد ونقاط محجوزة للحساب نفسه.")
    let popped := { booking.loyaltyState with hold := none }
    let w := w.saveBooking { booking with loyaltyState := popped }
    let posted ← post site w member (redeemPosting w booking.pk reference held.value)
    let state := { popped with redemption := some ⟨held.value, nextSequence w, 0⟩ }
    return (posted.saveBooking { booking with loyaltyState := state }, .value held.value)

/-- `redeem`. -/
def redeem (user : User) (reference : String) (reservation : Uuid) (w : World) : Except Refusal (World × Reply) := do
  postingTransaction site
  let member ← memberFor site w user true
  receipt digest w member reference (.redeem reservation) (redeemWork site user member reference reservation)

/-- The credit of `restore_points`. -/
def restorePosting (w : World) (pk : Uuid) (r : Redemption) (cents : ℕ) (evidenceReference : String) : Posting where
  group := group w
  branch := 1
  credit := amount cents - r.restored
  debit := 0
  allowNegative := false
  reservation := some pk
  operationType := .addition
  eventType := .restore
  component := .restore
  event := .restore pk cents
  original := some r.original
  counterpart := none
  requestReference := ""
  terms := none
  reason := "إعادة النقاط المستخدمة"
  evidence := .reference evidenceReference

/-- `restore_points`: the tables and the points that came back. -/
def restorePoints (reservation : Uuid) (cumulativeValue : Dec) (evidenceReference : String) (w : World) :
    Except Refusal (World × Dec) := do
  postingTransaction site
  let booking ← found (w.booking reservation) .doesNotExist
  raiseIf (site.bookingAllowed w booking = false) (.permission "الحجز خارج نطاق التجربة الخاصة.")
  let customer ← found booking.customer .attribute
  let member ← memberFor site w customer true
  let r ← found (booking.loyaltyState.redemption.filter fun _ => evidenceReference != "")
    (.validation "لا توجد حركة صرف موثقة أو مرجع إعادة.")
  let target ← cents cumulativeValue
  raiseIf (amount target < r.restored ∨ r.value < amount target)
    (.validation "الإعادة تتجاوز الصرف أو تناقض إعادة سابقة.")
  if amount target = r.restored then return (w, 0)
  else
    let posted ← post site w member (restorePosting w booking.pk r target evidenceReference)
    let state := { booking.loyaltyState with redemption := some { r with restored := amount target } }
    return (posted.saveBooking { booking with loyaltyState := state }, amount target - r.restored)

/-- A stay that keeps a membership from being closed. -/
def keepsMembership (b : Booking) : Except Refusal Bool :=
  if b.loyaltyState.hold ≠ none then .ok true
  else if b.normalizedStatus = .cancelled then .ok false
  else do
    let checkOut ← siteRead (site.stayEnd b)
    return decide (site.now < checkOut)

/-- The loop of `withdraw` over the bookings of the customer. -/
def openStays : List Booking → Except Refusal Unit
  | [] => .ok ()
  | b :: bookings => do
    let open_ ← keepsMembership site b
    raiseIf (open_ = true) (.validation "لا يمكن إلغاء العضوية مع حجز قائم أو نقاط محجوزة؛ سوِّ الحجز أولًا.")
    openStays bookings

/-- The debit of `withdraw`. -/
def closingPosting (w : World) (member : ℕ) (reference : String) (value : Dec) : Posting where
  group := group w
  branch := 1
  credit := 0
  debit := value
  allowNegative := false
  reservation := none
  operationType := .transfer
  eventType := .withdraw
  component := .closing
  event := .withdraw member
  original := none
  counterpart := none
  requestReference := reference
  terms := none
  reason := "إقفال العضوية اختياريًا وإسقاط النقاط وفق القاعدة المعتمدة"
  evidence := .none

/-- The work of `withdraw`. -/
def withdrawWork (user : User) (member : Member) (reference : String) (w : World) :
    Except Refusal (World × Reply) := do
  if member.status = .withdrawn then return (w, .withdrawn none)
  else
    openStays site (w.bookings.filter fun b => b.customer == some user)
    let value := Dec.quantizeEven 2 (balance w member.pk)
    let closed ← if 0 < value then post site w member (closingPosting w member.pk reference value) else pure w
    return (closed.modifyMember member.pk fun m => { m with status := .withdrawn }, .withdrawn (some (max value 0)))

/-- `withdraw`. -/
def withdraw (user : User) (reference : String) (w : World) : Except Refusal (World × Reply) := do
  postingTransaction site
  let member ← memberFor site w user false
  receipt digest w member reference .withdraw (withdrawWork site user member reference)

/-! ### Reconciling after an event -/

/-- `settle_booking_points`. -/
def settleBookingPoints (pk : Uuid) (w : World) : Except Refusal World := do
  let booking ← found (w.booking pk) .doesNotExist
  if site.bookingAllowed w booking = true ∧ booking.isActive = true ∧ booking.loyaltyState.hold ≠ none then
    let customer ← found booking.customer .attribute
    let (w, _) ← redeem digest site customer ("confirm:" ++ pk.str) pk w
    return w
  else return w

/-- `restore_cancelled_points`. -/
def restoreCancelledPoints (pk : Uuid) (w : World) : Except Refusal World := do
  let booking ← found (w.booking pk) .doesNotExist
  match booking.loyaltyState.redemption with
  | none => return w
  | some redeemed =>
    if site.bookingAllowed w booking = false ∨ booking.normalizedStatus ≠ .cancelled then return w
    else if site.effectiveArrival w booking = true then
      match booking.loyaltyState.departureSettlement with
      | none => return w
      | some departure =>
        let (w, _) ← restorePoints site pk departure.pointsRefund departure.reference w
        return w
    else
      let (w, _) ← restorePoints site pk redeemed.value ("cancel:" ++ pk.str) w
      return w

/-- The record that `_safe_reconcile` keeps of an exception. -/
def recordFailure (pk : Uuid) (e : Refusal) (w : World) : Except Refusal World := do
  let booking ← found (w.booking pk) .doesNotExist
  let state := { booking.loyaltyState with review := some (.processingError e) }
  return w.saveBooking { booking with loyaltyState := state }

/-- `_safe_reconcile`: each of the three parts is rolled back alone, and an exception ends the rest. -/
def safeReconcile (pk : Uuid) (w : World) : Except Refusal World :=
  if site.pilotOnly = true ∧ (w.booking pk).any (fun b => !site.bookingAllowed w b) = true then .ok w
  else if site.enabled = false then .ok w
  else
    match settleBookingPoints digest site pk w with
    | .error e => recordFailure pk e w
    | .ok redeemed =>
      match restoreCancelledPoints site pk redeemed with
      | .error e => recordFailure pk e redeemed
      | .ok restored =>
        match reconcile digest site pk restored with
        | .error e => recordFailure pk e restored
        | .ok (settled, _) => .ok settled

/-- The loop of `enroll` over the bookings of the new member. -/
def reconcileAll : List Uuid → World → Except Refusal World
  | [], w => .ok w
  | pk :: pks, w => do
    let (w, _) ← reconcile digest site pk w
    reconcileAll pks w

/-- The loop of `apply_for_user` over the bookings with an offer to a phone of the user. -/
def applyOffers (user : User) : List Uuid → World → Except Refusal World
  | [], w => .ok w
  | pk :: pks, w => do
    postingTransaction site
    let booking ← found (w.booking pk) .doesNotExist
    if (authorized site w booking).any (fun offer => offer.beneficiary == user) = true then
      let w ← safeReconcile digest site pk w
      applyOffers user pks w
    else applyOffers user pks w

/-- `apply_for_user`. -/
def applyForUser (user : User) (w : World) : Except Refusal World :=
  if site.enabled = false ∨ site.isActive user = false ∨ (w.memberOf user).all (fun m => m.status != .active) = true then
    .ok w
  else
    applyOffers digest site user ((w.bookings.filter fun b =>
      b.loyaltyState.offer.any fun o => (site.phones user).contains o.phone).map (·.pk)) w

/-! ### Joining -/

/-- The arguments of `enroll`; an absent token is the empty text. -/
structure Enrolment where
  user : User
  consent : Bool
  termsVersion : String
  termsReference : String
  language : String
  invitationToken : String
  confirmedInviter : Option ℕ
deriving DecidableEq

/-- The inviter that an enrolment names. -/
def invitingMember (w : World) (a : Enrolment) : Except Refusal (Option Member) :=
  if a.invitationToken ≠ "" then
    match w.members.find? fun m => m.invitationToken == some a.invitationToken && m.status == .active with
    | none => .error (.validation "أكد الداعي المطابق لرابط الدعوة.")
    | some parent =>
      if site.participantAllowed parent.customer = false ∨ site.invitationEligible w parent = false ∨
          a.confirmedInviter ≠ some parent.pk then .error (.validation "أكد الداعي المطابق لرابط الدعوة.")
      else .ok (some parent)
  else if a.confirmedInviter ≠ none then .error (.validation "تأكيد الداعي يحتاج رابط دعوة صالحًا.")
  else .ok none

/-- The primary key of the next member; keys of rolled back inserts are not used again. -/
def nextMember (w : World) : ℕ := (w.members.map Member.pk).foldr max 0 + 1 + site.skippedKeys

/-- The member that `enroll` creates. -/
def newMember (pk : ℕ) (user : User) : Member := ⟨pk, user, "LSA-M" ++ Dec.padded 6 pk, .active, none, []⟩

/-- The link of a new member below its inviter, or at the root of a tree of its own. -/
def newReferral (pk branch : ℕ) : Option (Member × Referral) → Referral
  | none => ⟨pk, none, pk, Dec.padded 4 branch, 0, branch⟩
  | some (parent, link) =>
    ⟨pk, some parent.pk, link.root, link.treeNumber ++ "-" ++ Dec.padded 4 branch, link.depth + 1, branch⟩

/-- The inviter with its current link. -/
def parentLink (w : World) : Option Member → Except Refusal (Option (Member × Referral))
  | none => .ok none
  | some parent => do
    let link ← found (currentLink w parent.pk) .doesNotExist
    return some (parent, link)

/-- The part of `enroll` that creates the member with its link. -/
def join (w : World) (a : Enrolment) : Except Refusal World := do
  let parent ← invitingMember site w a
  raiseIf (site.termsIssued a.termsVersion a.termsReference a.language = false)
    (.validation "Use the issued terms reference for this language.")
  let pk := nextMember site w
  let linked ← parentLink w parent
  createReferral { w with members := w.members ++ [newMember pk a.user] }
    (newReferral pk (nextBranch w (parent.map (·.pk))) linked)

/-- `enroll`. -/
def enroll (a : Enrolment) (w : World) : Except Refusal World := do
  postingTransaction site
  raiseIf (site.participantAllowed a.user = false) outsidePilot
  raiseIf (site.isAuthenticated a.user = false ∨ site.isActive a.user = false) (.permission "يلزم حساب ضيف موثق.")
  raiseIf (site.accountVerified a.user = false) (.permission "تحقق من جوال الحساب أو بريده أولًا.")
  raiseIf (a.consent = false ∨ a.termsVersion = "" ∨ a.termsReference = "" ∨ a.language ∉ ["ar", "en", "fr"])
    (.validation "الموافقة الصريحة ونسخة الشروط ومرجعها مطلوبة.")
  match w.memberOf a.user with
  | some existing =>
    raiseIf (existing.status ≠ .active) (.validation "إعادة عضوية ملغاة تنتظر اعتماد الأحكام.")
    return w
  | none =>
    let joined ← join site w a
    let settled ← reconcileAll digest site
      ((joined.bookings.filter fun b => b.customer == some a.user).map (·.pk)) joined
    applyForUser digest site a.user settled

end

end Apartments.Loyalty
