import Apartments.Lib.Run
import Apartments.Loyalty.Outcomes

/-!
# Runs of the loyalty core

A run is any sequence of operations, each with whatever the site answers it at that moment, and of changes that the rest
of the site makes to the bookings in between. The tables stay sound in every run, and so the ledger is a chain.
-/

namespace Apartments.Loyalty

open Payments Hostaway

/-- A loyalty operation with its arguments. -/
inductive Op
  | enroll (a : Enrolment)
  | reconcile (pk : Uuid)
  | safeReconcile (pk : Uuid)
  | transfer (user : User) (reference recipientNumber : String) (value : Dec)
  | hold (user : User) (reference : String) (reservation : Uuid) (value : Dec)
  | release (user : User) (reference : String) (reservation : Uuid)
  | redeem (user : User) (reference : String) (reservation : Uuid)
  | restorePoints (reservation : Uuid) (cumulativeValue : Dec) (evidenceReference : String)
  | withdraw (user : User) (reference : String)
  | linkMembers (q : LinkRequest)
deriving DecidableEq

/-- The tables that the operation leaves, or what it raises. -/
def Op.perform (digest : Payload → String) (site : Site) (w : World) : Op → Except Refusal World
  | .enroll a => Loyalty.enroll digest site a w
  | .reconcile pk => (Loyalty.reconcile digest site pk w).map (·.1)
  | .safeReconcile pk => Loyalty.safeReconcile digest site pk w
  | .transfer user reference recipientNumber value =>
    (Loyalty.transfer digest site user reference recipientNumber value w).map (·.1)
  | .hold user reference reservation value => (Loyalty.hold digest site user reference reservation value w).map (·.1)
  | .release user reference reservation => (Loyalty.release digest site user reference reservation w).map (·.1)
  | .redeem user reference reservation => (Loyalty.redeem digest site user reference reservation w).map (·.1)
  | .restorePoints reservation cumulativeValue evidenceReference =>
    (Loyalty.restorePoints site reservation cumulativeValue evidenceReference w).map (·.1)
  | .withdraw user reference => (Loyalty.withdraw digest site user reference w).map (·.1)
  | .linkMembers q => Loyalty.linkMembers site w q

/-- The calls of `reconcile` that the operation makes. -/
def Op.calls (digest : Payload → String) (site : Site) (w : World) : Op → List (World × Uuid)
  | .enroll a => enrollCalls digest site a w
  | .reconcile pk => [(w, pk)]
  | .safeReconcile pk => safeReconcileCalls digest site pk w
  | .transfer .. | .hold .. | .release .. | .redeem .. | .restorePoints .. | .withdraw .. | .linkMembers .. => []

/-- What the rest of the site writes into a booking; the checkout may give back what the booking holds. -/
structure SiteColumns where
  customer : Option User
  sourceType : SourceType
  normalizedStatus : ReservationStatus
  attempts : List PaymentStatus
  checkoutFrozen : Bool
  pointsConfirmationStarted : Bool
  departureSettlement : Option Departure
  offer : Option Offer
  dropsHold : Bool
deriving DecidableEq

def SiteColumns.write (c : SiteColumns) (b : Booking) : Booking :=
  { b with
    customer := c.customer
    sourceType := c.sourceType
    normalizedStatus := c.normalizedStatus
    attempts := c.attempts
    loyaltyState := { b.loyaltyState with
      hold := if c.dropsHold then none else b.loyaltyState.hold
      checkoutFrozen := c.checkoutFrozen
      pointsConfirmationStarted := c.pointsConfirmationStarted
      departureSettlement := c.departureSettlement
      offer := c.offer } }

inductive Action
  | operate (site : Site) (op : Op)
  | book (pk : Uuid) (createdAt : Time) (columns : SiteColumns)
  | record (pk : Uuid) (columns : SiteColumns)

/-- A booking that loyalty knows nothing of yet. -/
def newBooking (pk : Uuid) (createdAt : Time) (c : SiteColumns) : Booking :=
  c.write ⟨pk, none, .unknown, .unknown, createdAt, [], .empty⟩

theorem newBooking_hold (pk : Uuid) (createdAt : Time) (c : SiteColumns) :
    (newBooking pk createdAt c).loyaltyState.hold = none := ite_self _

def World.step (digest : Payload → String) (w : World) : Action → World
  | .operate site op =>
    match op.perform digest site w with
    | .ok w' => w'
    | .error _ => w
  | .book pk createdAt columns =>
    if (w.booking pk).isSome then w else { w with bookings := w.bookings ++ [newBooking pk createdAt columns] }
  | .record pk columns => { w with bookings := Table.modify Booking.pk w.bookings pk columns.write }

/-- The ledger is empty, and no booking has been looked at. -/
structure World.Opened (w : World) : Prop where
  ledger : w.ledger = []
  members : (w.members.map Member.pk).Nodup
  customers : (w.members.map Member.customer).Nodup
  bookings : (w.bookings.map Booking.pk).Nodup
  untouched : ∀ b ∈ w.bookings, b.loyaltyState.hold = none ∧ b.loyaltyState.redemption = none ∧
    b.loyaltyState.settlement = none ∧ b.loyaltyState.referralChain = none ∧ b.loyaltyState.review = none

section
variable {digest : Payload → String} {site : Site} {P : World → Booking → Facts → Prop} {w w' : World} {op : Op} {a : Action}

theorem World.Opened.sound (h : w.Opened) : Sound digest w where
  kept := by
    rw [h.ledger]
    exact wellKept_nil
  members := h.members
  customers := h.customers
  bookings := h.bookings
  posted := by simp [h.ledger]
  events := by simp [h.ledger]
  holds := fun b hb x hx => by simp [(h.untouched b hb).1] at hx
  settlements := fun b hb x hx => by simp [(h.untouched b hb).2.2.1] at hx
  reviews := fun b hb x hx => by simp [(h.untouched b hb).2.2.2.2] at hx

theorem changes_of_does {α : Type} {m : Except Refusal (World × α)} (h : Does digest site P w m) :
    Changes digest site P w (m.map (·.1)) := by
  cases m with
  | ok r => exact h
  | error e => exact h

/-- Every operation leads to its tables by moves, or raises what is no constraint of the ledger. -/
theorem perform_spec (hw : Sound digest w) (hP : ∀ c ∈ op.calls digest site w, Permits site P c) :
    Changes digest site P w (op.perform digest site w) := by
  cases op with
  | enroll => exact enroll_spec hw hP
  | reconcile => exact changes_of_does (reconcile_spec hw (hP _ (List.mem_singleton.2 rfl)))
  | safeReconcile => exact safeReconcile_spec hw hP
  | transfer => exact changes_of_does (transfer_spec hw)
  | hold => exact changes_of_does hold_spec
  | release => exact changes_of_does release_spec
  | redeem => exact changes_of_does (redeem_spec hw)
  | restorePoints => exact changes_of_does (restorePoints_spec hw)
  | withdraw => exact changes_of_does (withdraw_spec hw)
  | linkMembers => exact linkMembers_spec hw

/-- Any settlement at all. -/
def anySettlement : World → Booking → Facts → Prop := fun _ _ _ => True

theorem perform_any (hw : Sound digest w) : Changes digest site anySettlement w (op.perform digest site w) :=
  perform_spec hw fun _ _ _ _ => trivial

/-- What the site writes leaves what accounts for the ledger. -/
theorem Sound.record (hw : Sound digest w) (pk : Uuid) (c : SiteColumns) :
    Sound digest { w with bookings := Table.modify Booking.pk w.bookings pk c.write } := by
  have hmem : ∀ b ∈ Table.modify Booking.pk w.bookings pk c.write, ∃ b₀ ∈ w.bookings, b.pk = b₀.pk ∧
      (∀ x ∈ b.loyaltyState.hold, x ∈ b₀.loyaltyState.hold) ∧ b.loyaltyState.settlement = b₀.loyaltyState.settlement ∧
      b.loyaltyState.referralChain = b₀.loyaltyState.referralChain ∧ b.loyaltyState.review = b₀.loyaltyState.review := by
    intro b hb
    obtain ⟨b₀, hb₀, rfl⟩ := Table.mem_modify.1 hb
    refine ⟨b₀, hb₀, ?_⟩
    split
    · refine ⟨rfl, fun x hx => ?_, rfl, rfl, rfl⟩
      dsimp only [SiteColumns.write] at hx
      split at hx
      · cases hx
      · exact hx
    · exact ⟨rfl, fun _ hx => hx, rfl, rfl, rfl⟩
  have hlater : w.Later { w with bookings := Table.modify Booking.pk w.bookings pk c.write } := by
    refine ⟨fun m hm => ⟨m, hm, .refl m⟩, fun b hb => ⟨_, Table.mem_modify.2 ⟨b, hb, rfl⟩, ?_⟩⟩
    split
    · exact ⟨rfl, .of_eq rfl rfl⟩
    · exact ⟨rfl, .refl _⟩
  refine { hw with
    bookings := ?_, events := fun r hr => (hw.events r hr).later hlater, holds := ?_, settlements := ?_, reviews := ?_ }
  · have hpks : (Table.modify Booking.pk w.bookings pk c.write).map Booking.pk = w.bookings.map Booking.pk :=
      Table.map_key_modify fun _ h => h
    show ((Table.modify Booking.pk w.bookings pk c.write).map Booking.pk).Nodup
    rw [hpks]
    exact hw.bookings
  · intro b hb x hx
    obtain ⟨b₀, hb₀, -, hhold, -⟩ := hmem b hb
    exact hw.holds b₀ hb₀ x (hhold x hx)
  · intro b hb x hx
    obtain ⟨b₀, hb₀, -, -, hsettlement, hchain, -⟩ := hmem b hb
    rw [hchain]
    exact hw.settlements b₀ hb₀ x (hsettlement ▸ hx)
  · intro b hb x hx
    obtain ⟨b₀, hb₀, -, -, -, -, hreview⟩ := hmem b hb
    exact hw.reviews b₀ hb₀ x (hreview ▸ hx)

theorem Sound.book (hw : Sound digest w) {pk : Uuid} (hnew : w.booking pk = none) (createdAt : Time) (c : SiteColumns) :
    Sound digest { w with bookings := w.bookings ++ [newBooking pk createdAt c] } := by
  have hlater : w.Later { w with bookings := w.bookings ++ [newBooking pk createdAt c] } :=
    ⟨fun m hm => ⟨m, hm, .refl m⟩, fun b hb => ⟨b, List.mem_append_left _ hb, rfl, .refl _⟩⟩
  refine { hw with
    bookings := ?_, events := fun r hr => (hw.events r hr).later hlater, holds := ?_, settlements := ?_, reviews := ?_ }
  · rw [List.map_append, List.nodup_append]
    refine ⟨hw.bookings, by simp, ?_⟩
    rintro k hk k' hk' rfl
    obtain ⟨b, hb, rfl⟩ := List.mem_map.1 hk
    obtain rfl : b.pk = pk := by simpa [newBooking, SiteColumns.write] using hk'
    exact Table.get_eq_none.1 hnew b hb rfl
  · intro b hb x hx
    rcases List.mem_append.1 hb with hb | hb
    · exact hw.holds b hb x hx
    · rw [List.mem_singleton.1 hb, newBooking_hold] at hx
      cases hx
  · intro b hb x hx
    rcases List.mem_append.1 hb with hb | hb
    · exact hw.settlements b hb x hx
    · rw [List.mem_singleton.1 hb] at hx
      cases hx
  · intro b hb x hx
    rcases List.mem_append.1 hb with hb | hb
    · exact hw.reviews b hb x hx
    · rw [List.mem_singleton.1 hb] at hx
      cases hx

theorem Sound.step (hw : Sound digest w) (a : Action) : Sound digest (w.step digest a) := by
  cases a with
  | operate site op =>
    simp only [World.step]
    have hop : Changes digest site anySettlement w (op.perform digest site w) := perform_any hw
    split
    · rename_i v hv
      exact Leads.sound (hop.of_eq_ok hv) hw
    · exact hw
  | book pk createdAt columns =>
    simp only [World.step]
    split
    · exact hw
    · rename_i hnew
      exact hw.book (by simpa using hnew) createdAt columns
  | record pk columns => exact hw.record pk columns

open Machine in
theorem World.Opened.run (h : w.Opened) (as : List Action) : Sound digest (run (World.step digest) w as) :=
  run_inv (fun _ a hw => hw.step a) h.sound as

end

open Machine in
/-- In every run the ledger is a chain of running balances, its keys differ, and no operation is refused by a constraint
of it. -/
theorem ledger_is_a_chain {w : World} (h : w.Opened) (digest : Payload → String) (as : List Action) :
    ((run (World.step digest) w as).ledger.map Row.sequence = List.range' 1 (run (World.step digest) w as).ledger.length ∧
      (∀ r ∈ (run (World.step digest) w as).ledger, r.onePostingSide) ∧
      ∀ before r after, (run (World.step digest) w as).ledger = before ++ r :: after →
        r.programBalanceAfter = Journal.whole columns (before ++ [r]) ∧
        r.memberBalanceAfter = Journal.own columns r.member (before ++ [r])) ∧
    ((run (World.step digest) w as).ledger.map Row.operationNumber).Nodup ∧
    ((run (World.step digest) w as).ledger.map fun r => (r.operationGroup, r.branch)).Nodup ∧
    ((run (World.step digest) w as).ledger.map fun r => (r.eventReference, r.member, r.component)).Nodup ∧
    (∀ site op e, Op.perform digest site (run (World.step digest) w as) op = .error e → e.Ordinary) ∧
    ∀ b ∈ (run (World.step digest) w as).bookings, b.loyaltyState.Reviewed := by
  have hw : Sound digest (run (World.step digest) w as) := h.run as
  generalize run (World.step digest) w as = v at hw ⊢
  refine ⟨⟨hw.kept.chained.numbers, hw.kept.sides, fun before r after hr => ?_⟩, hw.kept.operationNumber,
    hw.kept.operationBranch, hw.kept.events, fun site op e he => ?_, hw.reviews⟩
  · exact (hw.kept.chained before r after hr).2
  · have hop : Changes digest site anySettlement v (op.perform digest site v) := perform_any hw
    exact hop.of_eq_error he

/-! ### A stay and a transfer -/

def plainDigest : Payload → String
  | .transfer recipient value => "transfer:" ++ recipient ++ ":" ++ Dec.fixed 2 value
  | .transferred recipient value => "transferred:" ++ recipient ++ ":" ++ Dec.fixed 2 value
  | .hold reservation value => "hold:" ++ reservation.str ++ ":" ++ Dec.fixed 2 value
  | .release reservation => "release:" ++ reservation.str
  | .redeem reservation => "redeem:" ++ reservation.str
  | .withdraw => "withdraw"
  | .facts facts => "facts:" ++ Dec.fixed 2 facts.base ++ ":" ++ Dec.fixed 2 facts.refunded

/-- A paid stay of the given eligible amount. -/
def stayFacts (base : Dec) : Facts where
  base := base
  total := 1000
  cash := 1000
  refunded := 1000 - base
  points := 0
  checkIn := 10
  checkOut := 20
  arrivalAt := some 10
  arrivalReference := "desk"
  accrualEligibility := none
  stayException := false
  offer := none

/-- A site that admits everybody, and reads the given facts of every booking. -/
def plainSite (facts : Except String Facts) : Site where
  enabled := true
  launchAt := some 0
  now := 100
  pilotOnly := false
  operationsOwner := fun user => user == 9
  participantAllowed := fun _ => true
  isAuthenticated := fun _ => true
  isActive := fun _ => true
  accountVerified := fun _ => true
  termsIssued := fun _ _ _ => true
  phones := fun _ => []
  invitationEligible := fun _ _ => true
  bookingAllowed := fun _ _ => true
  historicalAwardAllowed := fun _ _ => false
  paidPhoneAccount := fun _ _ => none
  offerSent := fun _ _ _ => false
  phoneHolder := fun _ _ _ => none
  financialFacts := fun _ _ _ => facts
  offerQuoted := fun _ _ => false
  totalSar := fun _ _ => .ok 1000
  stayEnd := fun _ => .ok 20
  effectiveArrival := fun _ _ => false
  skippedKeys := 0

def paidSite : Site := plainSite (.ok (stayFacts 1000))

def consent (user : User) : Enrolment := ⟨user, true, "1", "terms-1", "ar", "", none⟩

def stayPk : Uuid := ⟨"7d2e7c1a-1f60-4f0e-9a51-0d5d7c2f1c01", rfl⟩

/-- The columns of a confirmed booking of the customer. -/
def confirmedBy (user : User) : SiteColumns := ⟨some user, .directWebsite, .confirmed, [.succeeded], false, false, none, none, false⟩

def emptyWorld : World := ⟨[], [], [], [], []⟩

theorem emptyWorld_opened : emptyWorld.Opened where
  ledger := rfl
  members := List.nodup_nil
  customers := List.nodup_nil
  bookings := List.nodup_nil
  untouched := by simp [emptyWorld]

def transferRun : List Action :=
  [.book stayPk 5 (confirmedBy 1), .operate paidSite (.enroll (consent 1)), .operate paidSite (.enroll (consent 2)),
   .operate paidSite (.transfer 1 "gift-1" "LSA-M000002" 10)]

/-- The stay earns 30 points, of which 10 are passed on. -/
theorem ledger_is_a_chain_transfer :
    (Machine.run (World.step plainDigest) emptyWorld transferRun).ledger.map
        (fun r => (r.operationNumber, r.member, r.memberBalanceAfter, r.programBalanceAfter)) =
      [("LSA000001-01", 1, 30, 30), ("LSA000002-01", 1, 20, 20), ("LSA000002-02", 2, 10, 30)] ∧
      ((Machine.run (World.step plainDigest) emptyWorld transferRun).ledger.map Row.operationNumber).Nodup :=
  ⟨by decide +kernel, (ledger_is_a_chain emptyWorld_opened plainDigest transferRun).2.1⟩

end Apartments.Loyalty
