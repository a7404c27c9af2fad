import Apartments.Hostaway.ChangeRequests
import Apartments.Loyalty.Departures

/-!
# The cutoff of cancellations (`stay_lifecycle.py`, `loyalty/stay.py`)

`cancellation_blocker` closes a stay at the checkout instant of its listing, and every transaction that creates,
approves, checks or claims a cancellation asks it with the rows and the clock of that moment. The end that an early
departure is measured against is noon in the zone of the property. A world is the reservation with its change
requests and executions (`Hostaway.Changes`), the listing and the stored plan; listing and reservation may change at
any time. The log keeps, for each check of a cancellation, what it answered and what it would have answered without
the cutoff.
-/

namespace Apartments.StayEnd

open Payments Hostaway Loyalty

/-- The fields of `Property` that date the end of a stay. -/
structure Listing where
  countryCode : String
  timeZoneName : String
  displayCheckOutHour : Option ℕ
  checkOutTime : Option ℕ
deriving DecidableEq

def stayCompleted : String := "reservation_stay_completed"

/-- The zone of a listing that names none. -/
def fallback (zones : Zones) (l : Option Listing) : Zone :=
  let country := Text.strip ((l.map (·.countryCode)).getD "")
  if country.toList.map Char.toUpper = ['M', 'A'] then zones.casablanca else zones.riyadh

def listingZone (zones : Zones) (l : Option Listing) : Zone :=
  let name := Text.strip ((l.map (·.timeZoneName)).getD "")
  if name = "" then fallback zones l else (zones.info name).getD (fallback zones l)

/-- Display checkout hour, then imported hour, then noon. -/
def checkoutHour (l : Option Listing) : ℕ :=
  ([l.bind (·.displayCheckOutHour), l.bind (·.checkOutTime)].reduceOption.find? (· ≤ 24)).getD 12

/-- `checkout_datetime`. -/
def checkoutDatetime (zones : Zones) (l : Option Listing) (r : Reservation) : Time :=
  (listingZone zones l).moment r.checkOut (checkoutHour l)

/-- The status says so itself; no value of `Reservation.Status` does. -/
def completed (r : Reservation) : Bool := Text.casefold (Text.strip r.hostawayStatus) == "completed"

/-- A direct record that never became a stay. -/
def orphaned (r : Reservation) : Bool :=
  r.sourceType == .directWebsite &&
    !([.confirmed, .modified, .cancelled, .declined, .expired].contains r.normalizedStatus) &&
    r.hostawayReservationId.isNone

/-- `cancellation_blocker`. -/
def cancellationBlocker (zones : Zones) (l : Option Listing) (r : Reservation) (now : Time) : String :=
  if completed r then stayCompleted
  else if orphaned r then ""
  else if checkoutDatetime zones l r ≤ now then stayCompleted
  else ""

/-- The stay has ended: its status says so, or the checkout instant of its listing has come. -/
def Ended (zones : Zones) (l : Option Listing) (r : Reservation) (now : Time) : Prop :=
  completed r = true ∨ (orphaned r = false ∧ checkoutDatetime zones l r ≤ now)

instance (zones : Zones) (l : Option Listing) (r : Reservation) (now : Time) : Decidable (Ended zones l r now) :=
  inferInstanceAs (Decidable (_ ∨ (_ ∧ _)))

/-- A check of a cancellation at `moment`, with the listing and the reservation it read. -/
structure Check where
  moment : Time
  listing : Option Listing
  reservation : Reservation
  answer : Option String
  withoutCutoff : Option String
deriving DecidableEq

structure World where
  listing : Option Listing
  office : Changes.World
  departure : Option DepartureSettlement
  log : List Check
deriving DecidableEq

inductive Action
  | depart (asked : Departing)
  | relisted (listing : Option Listing)
  | moved (reservation : Reservation)
  | change (now : Time) (action : Changes.Action)
deriving DecidableEq

/-- The refusal of the next check of a call, if it is one of a cancellation. -/
def checked (b : Board) (c : Changes.Call) (e : Checks) : Option (Option String) :=
  match b.request c.request.pk, c.stage with
  | some m, .loaded ownerOverride =>
    if isCancellation m && !Changes.disabled e ownerOverride c.request then some (approvalRefusal e b ownerOverride m)
    else none
  | some m, .executing =>
    if isCancellation m && isCancellation c.request then some (executeRefusal e b m b.reservation) else none
  | some m, .claiming =>
    if isCancellation m && claim m.operation false != .refused then
      some (if claimBlocker e b m = "" then none else some (claimBlocker e b m))
    else none
  | _, _ => none

def refusal : Except String Board → Option String
  | .ok _ => none
  | .error code => some code

namespace World

/-- What the booking contracts for, as the departure reads it. -/
def terms (w : World) : StayTerms where
  checkIn := w.office.board.reservation.checkIn
  checkOut := w.office.board.reservation.checkOut
  totalPrice := w.office.board.reservation.totalPrice
  currency := w.office.board.reservation.currency
  timeZoneName := w.listing.map (·.timeZoneName)

def blocker (zones : Zones) (w : World) (now : Time) : String :=
  cancellationBlocker zones w.listing w.office.board.reservation now

/-- The action, asking the cutoff at the moment it is taken. -/
def clocked (zones : Zones) (w : World) (now : Time) : Changes.Action → Changes.Action
  | .cancellation q => .cancellation { q with now := now, cancellationBlocker := w.blocker zones now }
  | .event i (.check e) => .event i (.check { e with now := now, cancellationBlocker := w.blocker zones now })
  | a => a

/-- What a check of a cancellation answers. -/
def answered (w : World) : Changes.Action → Option (Option String)
  | .cancellation q => some (refusal (createCancellationRequest w.office.board q))
  | .event i (.check e) => w.office.calls[i]?.bind fun c => checked w.office.board c e
  | _ => none

/-- The action with the cutoff left out. -/
def uncut : Changes.Action → Changes.Action
  | .cancellation q => .cancellation { q with cancellationBlocker := "" }
  | .event i (.check e) => .event i (.check { e with cancellationBlocker := "" })
  | a => a

/-- The entry of the log for an action. -/
def entry (w : World) (now : Time) (a : Changes.Action) : List Check :=
  match w.answered a with
  | none => []
  | some answer => [⟨now, w.listing, w.office.board.reservation, answer, (w.answered (uncut a)).getD none⟩]

def step (zones : Zones) (w : World) : Action → World
  | .depart d =>
    match recordDeparture zones w.terms w.departure d with
    | .ok plan => { w with departure := some plan }
    | .error _ => w
  | .relisted l => { w with listing := l }
  | .moved r => { w with office := { w.office with board := { w.office.board with reservation := r } } }
  | .change now a =>
    { w with office := w.office.step (w.clocked zones now a), log := w.log ++ w.entry now (w.clocked zones now a) }

end World

variable {zones : Zones} {w : World} {l : Option Listing} {r : Reservation} {now : Time} {b : Board} {c : Changes.Call}
  {e : Checks} {m : ModificationRequest}

/-! ### The cutoff -/

theorem cancellationBlocker_eq :
    cancellationBlocker zones l r now = if Ended zones l r now then stayCompleted else "" := by
  unfold cancellationBlocker Ended
  by_cases hc : completed r = true
  · simp [hc]
  · by_cases ho : orphaned r = true <;> simp [hc, ho]

theorem cancellationBlocker_ne : cancellationBlocker zones l r now ≠ "" ↔ Ended zones l r now := by
  rw [cancellationBlocker_eq]
  split_ifs with h
  · exact iff_of_true (by decide) h
  · exact iff_of_false (by simp) h

/-- Every early moment is before the cutoff exactly if the checkout instant is no earlier than noon. -/
theorem early_before_cutoff {noon : Time} (hc : completed r = false) (ho : orphaned r = false) :
    (∀ t < noon, ¬ Ended zones l r t) ↔ noon ≤ checkoutDatetime zones l r := by
  simp only [Ended, hc, ho, Bool.false_eq_true, true_and, false_or, not_le]
  constructor
  · intro h
    by_contra hlt
    exact absurd (h _ (not_le.1 hlt)) (lt_irrefl _)
  · exact fun h t ht => ht.trans_le h

/-! ### A check that asks the cutoff -/

theorem executionBlocker_ne (hm : isCancellation m = true) (he : e.cancellationBlocker ≠ "") :
    executionBlocker e m r ≠ "" := by
  unfold executionBlocker
  split_ifs <;> first | decide | assumption

theorem approvalRefusal_ne {ownerOverride : Bool} (hm : isCancellation m = true) (he : e.cancellationBlocker ≠ "") :
    approvalRefusal e b ownerOverride m ≠ none := by
  unfold approvalRefusal
  split_ifs <;> simp_all

theorem executeRefusal_ne (hm : isCancellation m = true) (he : e.cancellationBlocker ≠ "") :
    executeRefusal e b m r ≠ none := by
  have hblock := executionBlocker_ne (r := r) hm he
  unfold executeRefusal
  split_ifs <;> simp

theorem claimBlocker_ne (hm : isCancellation m = true) (he : e.cancellationBlocker ≠ "") :
    claimBlocker e b m ≠ "" := by
  have hblock := executionBlocker_ne (r := b.reservation) hm he
  unfold claimBlocker
  rw [if_pos ⟨hm, hblock⟩]
  exact hblock

/-- No check of a cancellation passes while the blocker is up. -/
theorem checked_ne {answer : Option String} (h : checked b c e = some answer) (he : e.cancellationBlocker ≠ "") :
    answer ≠ none := by
  unfold checked at h
  split at h
  · split_ifs at h with hm
    cases h
    rw [Bool.and_eq_true] at hm
    exact approvalRefusal_ne hm.1 he
  · split_ifs at h with hm
    cases h
    rw [Bool.and_eq_true] at hm
    exact executeRefusal_ne hm.1 he
  · split_ifs at h with hm hblock
    · exact absurd hblock (claimBlocker_ne (Bool.and_eq_true_iff.1 hm).1 he)
    · cases h
      simp
  · cases h

theorem refusal_create_ne {q : CancellationAsked} (hq : q.cancellationBlocker ≠ "") :
    refusal (createCancellationRequest b q) ≠ none := by
  unfold createCancellationRequest
  split_ifs <;> simp [refusal]

/-- What an entry of the log says about the cutoff. -/
structure Check.Cut (zones : Zones) (x : Check) : Prop where
  refused : Ended zones x.listing x.reservation x.moment → x.answer ≠ none
  only : x.answer ≠ x.withoutCutoff → Ended zones x.listing x.reservation x.moment

theorem answered_ne {a : Changes.Action} {answer : Option String} (h : w.answered (w.clocked zones now a) = some answer)
    (hblock : w.blocker zones now ≠ "") : answer ≠ none := by
  cases a with
  | cancellation q =>
    simp only [World.clocked, World.answered, Option.some.injEq] at h
    rw [← h]
    apply refusal_create_ne
    dsimp only
    exact hblock
  | event i ev =>
    cases ev with
    | check e =>
      obtain ⟨c, -, hc⟩ := Option.bind_eq_some_iff.1 h
      apply checked_ne hc
      dsimp only
      exact hblock
    | send => cases h
    | reply => cases h
    | write => cases h
  | quote => cases h
  | ownerTotal => cases h
  | execute => cases h
  | automatic => cases h

/-- While the blocker is down an action is what it is without the cutoff. -/
theorem uncut_clocked (hblock : w.blocker zones now = "") (a : Changes.Action) :
    World.uncut (w.clocked zones now a) = w.clocked zones now a := by
  cases a with
  | cancellation q => simp only [World.clocked, World.uncut, hblock]
  | event i ev =>
    cases ev with
    | check e => simp only [World.clocked, World.uncut, hblock]
    | send => rfl
    | reply => rfl
    | write => rfl
  | quote => rfl
  | ownerTotal => rfl
  | execute => rfl
  | automatic => rfl

theorem cut_entry (now : Time) (a : Changes.Action) : ∀ x ∈ w.entry now (w.clocked zones now a), x.Cut zones := by
  intro x hx
  unfold World.entry at hx
  cases hanswer : w.answered (w.clocked zones now a) with
  | none => simp [hanswer] at hx
  | some answer =>
    rw [hanswer, List.mem_singleton] at hx
    subst hx
    constructor
    · exact fun hended => answered_ne hanswer (cancellationBlocker_ne.2 hended)
    · intro hdiffer
      by_contra hgoing
      have hblock : w.blocker zones now = "" := not_not.1 fun h => hgoing (cancellationBlocker_ne.1 h)
      rw [uncut_clocked hblock, hanswer] at hdiffer
      exact hdiffer rfl

/-! ### Runs -/

theorem step_depart (zones : Zones) (w : World) (d : Departing) :
    w.step zones (.depart d) = w ∨
      ∃ p, recordDeparture zones w.terms w.departure d = .ok p ∧
        w.step zones (.depart d) = { w with departure := some p } := by
  simp only [World.step]
  cases recordDeparture zones w.terms w.departure d with
  | ok p => exact .inr ⟨p, rfl, rfl⟩
  | error => exact .inl rfl

theorem step_departure {p : DepartureSettlement} (h : w.departure = some p) (a : Action) :
    (w.step zones a).departure = some p := by
  cases a with
  | depart d =>
    rcases step_depart zones w d with hs | ⟨plan, hplan, hs⟩
    · rw [hs, h]
    · rw [h] at hplan
      rw [hs, recordDeparture_stored hplan]
  | relisted => exact h
  | moved => exact h
  | change => exact h

theorem step_log (h : ∀ x ∈ w.log, x.Cut zones) (a : Action) : ∀ x ∈ (w.step zones a).log, x.Cut zones := by
  cases a with
  | depart d =>
    rcases step_depart zones w d with hs | ⟨plan, -, hs⟩
    · rw [hs]
      exact h
    · rw [hs]
      exact h
  | relisted => exact h
  | moved => exact h
  | change now a =>
    intro x hx
    rcases List.mem_append.1 hx with hx | hx
    · exact h x hx
    · exact cut_entry now a x hx

/-- What is left of a departure in a later world: the recorded plan; until the checkout instant of the listing no check
of a cancellation is refused because the stay has ended, and from then on none passes; and the early departures are
all before that instant exactly if it is no earlier than the noon they are measured against. -/
structure World.Settles (zones : Zones) (w w' : World) : Prop where
  kept : ∀ p, w.departure = some p → w'.departure = some p
  cut : ∀ x ∈ w'.log, x.Cut zones
  early : ∀ d p, recordDeparture zones w'.terms w'.departure d = .ok p →
    ∃ name zone, w'.terms.timeZoneName = some name ∧ zones.info name = some zone ∧
      (p.normal = false ↔ d.vacatedAt < zone.moment w'.terms.checkOut 12) ∧
      (completed w'.office.board.reservation = false → orphaned w'.office.board.reservation = false →
        ((∀ t < zone.moment w'.terms.checkOut 12, ¬ Ended zones w'.listing w'.office.board.reservation t) ↔
          zone.moment w'.terms.checkOut 12 ≤ checkoutDatetime zones w'.listing w'.office.board.reservation))

theorem departure_settled_until_checkout (zones : Zones) (w : World) (as : List Action) (hlog : w.log = []) :
    w.Settles zones (Machine.run (World.step zones) w as) where
  kept p hp := Machine.run_inv (I := fun w : World => w.departure = some p) (fun w a h => step_departure h a) hp as
  cut :=
    Machine.run_inv (I := fun w : World => ∀ x ∈ w.log, x.Cut zones) (fun w a h => step_log h a) (by simp [hlog]) as
  early d p hp := by
    obtain ⟨zone, noon, hends, hnormal⟩ := recordDeparture_normal hp
    obtain ⟨name, hname, hzone, rfl⟩ := stayEnd_ok hends
    exact ⟨name, zone, hname, hzone, hnormal, early_before_cutoff⟩

/-! ### A guest who left on the first of two nights -/

def riyadh : Zone := ⟨(· - 10800), (· + 10800)⟩

def casablanca : Zone := ⟨(· - 3600), (· + 3600)⟩

def twoZones : Zones where
  info name :=
    if name = "Africa/Casablanca" then some casablanca else if name = "Asia/Riyadh" then some riyadh else none
  casablanca := casablanca
  riyadh := riyadh
  info_casablanca := rfl
  info_riyadh := rfl

def twoNights : Reservation := { Changes.stay with checkIn := 10, checkOut := 12, totalPrice := 200 }

/-- Half past eleven on the day of departure. -/
def beforeNoon : Time := riyadh.moment 12 11 + 1800

/-- The departure at `vacatedAt` of a guest who arrived at 15:00 of day 10 and paid 200 by card. -/
def leaving (vacatedAt : Time) : Departing where
  permitted := true
  bookingAllowed := true
  operator := 1
  reference := "booking-end"
  now := vacatedAt
  vacatedAt := vacatedAt
  naive := false
  arrivedAt := some (riyadh.moment 10 15)
  facts := some ⟨200, 0, 200, 0, [("baseRate", 200)]⟩
  contract := .ok (200, 200)
  nights := 2
  pricedNights := some ⟨some "SAR", some "quote", [⟨10, 100⟩, ⟨11, 100⟩]⟩
  quote := none

def ownerCancels : CancellationAsked where
  pk := ⟨"0c8d3b7e-92a1-4f65-b3d4-1e7f5a6c2b90", rfl⟩
  idempotencyKey := "cancellation"
  requestsEnabled := true
  automaticCancellation := true
  baseBlocker := ""
  cancellationBlocker := ""
  planRefused := false
  now := 0
  expiresAt := 0

def twoNightStay (displayCheckOutHour : Option ℕ) : World where
  listing := some ⟨"SA", "Asia/Riyadh", displayCheckOutHour, none⟩
  office := ⟨⟨twoNights, []⟩, [], []⟩
  departure := none
  log := []

/-- The guest leaves at 10:00 of day 11; the cancellation is asked for at 13:00 of day 12. -/
def cancelledLate : World :=
  Machine.run (World.step twoZones) (twoNightStay none)
    [.depart (leaving (riyadh.moment 11 10)), .change (riyadh.moment 12 13) (.cancellation ownerCancels)]

/-- A plan of 100 in cash is recorded, and then the cancellation is refused because the stay has ended. Where the
listing displays 11:00 as its checkout hour, a departure at 11:30 is early, and the cutoff has passed. -/
theorem recorded_departure_refused :
    cancelledLate.departure.map (fun p => (p.normal, p.cashRefund)) = some (false, 100) ∧
      cancelledLate.log.map (fun x => (x.answer, x.withoutCutoff)) = [(some "reservation_stay_completed", none)] ∧
      (recordDeparture twoZones (twoNightStay (some 11)).terms none (leaving beforeNoon)).toOption.map (·.normal) =
        some false ∧
      Ended twoZones (twoNightStay (some 11)).listing twoNights beforeNoon := by
  decide +kernel

theorem two_night_stay_settles :
    (twoNightStay none).log = [] ∧ (twoNightStay none).Settles twoZones cancelledLate :=
  ⟨rfl, departure_settled_until_checkout twoZones (twoNightStay none) _ rfl⟩

end Apartments.StayEnd
