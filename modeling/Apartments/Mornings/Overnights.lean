import Mathlib.Data.Int.Notation
import Mathlib.Data.Nat.Notation
import Mathlib.Tactic.Common

/-!
# Overnight stays and mornings (`morning_stays.py`)

Three tests keep an overnight stay and a morning apart. `overnight_conflicts` is asked when the morning is there already,
`local_inflight_conflict` and the occupancy rule of `verify_window` when the overnight stay is. They pad the turnover on
different sides and take the hours of the overnight stay from different places. Local times and instants are seconds; a
date is a number of days.
-/

namespace Apartments.Morning.Overnight

def hour : ℤ := 3600

def day : ℤ := 24 * hour

/-- The turnover between a morning and an overnight arrival. -/
def turnover : ℤ := 3 * hour

/-- The clocks of a property between three at night and two of the next night. -/
def Settled (date x : ℤ) : Prop := date * day + 3 * hour ≤ x ∧ x < (date + 1) * day + 2 * hour

/-- A time zone whose clocks change by one hour at most, and at night: `wall` is the local time of an instant and `instant`
the instant of a local time, the first one if there are two. -/
structure Zone where
  wall : ℤ → ℤ
  instant : ℤ → ℤ
  base : ℤ
  wall_bounds : ∀ t, base ≤ wall t - t ∧ wall t - t ≤ base + hour
  instant_bounds : ∀ x, base ≤ x - instant x ∧ x - instant x ≤ base + hour
  settled : ∀ date x y, Settled date x → Settled date y → x - instant x = y - instant y
  wall_settled : ∀ date t, Settled date (wall t) → instant (wall t) = t

/-- An aware datetime, by its instant and its local time at the property. -/
structure Moment where
  instant : ℤ
  wall : ℤ
deriving DecidableEq

/-- A form combines a date and a time in the zone of the property; the database gives an instant. -/
inductive Source
  | form | database
deriving DecidableEq, Repr

structure Window where
  source : Source
  startsAt : Moment
  endsAt : Moment
deriving DecidableEq

/-- `display_check_in_hour` and `display_check_out_hour`, from 0 to 24 where they are given. -/
structure Property where
  displayCheckInHour : Option (Fin 25)
  displayCheckOutHour : Option (Fin 25)
deriving DecidableEq

/-- A row of Hostaway, whose hours may be any numbers. -/
structure Row where
  arrivalDate : ℤ
  departureDate : ℤ
  checkInTime : Option ℤ
  checkOutTime : Option ℤ
deriving DecidableEq

def Zone.Carries (z : Zone) (source : Source) (m : Moment) : Prop :=
  match source with
  | .form => m.instant = z.instant m.wall
  | .database => m.wall = z.wall m.instant

def dateOf (x : ℤ) : ℤ := x / day

def timeOf (x : ℤ) : ℤ := x % day

/-- `validate_window`. -/
def validateWindow (now : ℤ) (allowStarted allowElapsed : Bool) (w : Window) : Bool :=
  dateOf w.startsAt.wall == dateOf w.endsAt.wall && decide (0 < timeOf w.startsAt.wall) &&
    decide (timeOf w.startsAt.wall < timeOf w.endsAt.wall) && decide (timeOf w.endsAt.wall ≤ 12 * hour) &&
    !(decide (w.startsAt.instant < now) && !allowStarted) && !(decide (w.endsAt.instant ≤ now) && !allowElapsed) &&
    !decide (now + 14 * day < w.startsAt.instant)

/-- A local time comes before a moment and what is added to it: two datetimes of one zone are compared by their local
times, others by their instants. -/
def before (z : Zone) (source : Source) (x : ℤ) (m : Moment) (pad : ℤ) : Bool :=
  match source with
  | .form => decide (x < m.wall + pad)
  | .database => decide (z.instant x < m.instant + pad)

/-- A local time comes after a moment. -/
def after (z : Zone) (source : Source) (x : ℤ) (m : Moment) : Bool :=
  match source with
  | .form => decide (m.wall < x)
  | .database => decide (m.instant < z.instant x)

/-- The local time of an hour of a date. -/
def atHour (date h : ℤ) : ℤ := date * day + h * hour

def Property.checkIn (p : Property) (date : ℤ) : ℤ := atHour date (p.displayCheckInHour.elim 15 fun h => (h : ℕ))

def Property.checkOut (p : Property) (date : ℤ) : ℤ := atHour date (p.displayCheckOutHour.elim 12 fun h => (h : ℕ))

/-- `overnight_conflicts` with an active stay of this window, by the instants in the database. -/
def overnightConflicts (z : Zone) (p : Property) (checkIn checkOut : ℤ) (w : Window) : Bool :=
  decide (w.startsAt.instant < z.instant (p.checkOut checkOut)) &&
    decide (z.instant (p.checkIn checkIn - turnover) < w.endsAt.instant)

/-- `local_inflight_conflict` with a stay that is being booked or paid for. -/
def localInflightConflict (z : Zone) (checkIn checkOut : ℤ) (w : Window) : Bool :=
  decide (checkIn ≤ dateOf w.startsAt.wall) && decide (dateOf w.startsAt.wall ≤ checkOut) &&
    before z w.source (atHour checkIn 15) w.endsAt turnover && after z w.source (atHour checkOut 12) w.startsAt

/-- An hour that `verify_window` accepts. -/
def validHour (h : ℤ) : Bool := decide (0 ≤ h) && decide (h ≤ 24)

/-- The hours `verify_window` goes on with: those of the row, of the property, or 15 and 12. -/
def Row.inHour (r : Row) (p : Property) : ℤ :=
  r.checkInTime.getD (p.displayCheckInHour.elim 15 fun h => (h : ℕ))

def Row.outHour (r : Row) (p : Property) : ℤ :=
  r.checkOutTime.getD (p.displayCheckOutHour.elim 12 fun h => (h : ℕ))

/-- The page of Hostaway lists the row: it departs on the day before the morning at the earliest and arrives on the day of
the morning at the latest. -/
def Row.listed (r : Row) (w : Window) : Bool :=
  decide (dateOf w.startsAt.wall - 1 ≤ r.departureDate) && decide (r.arrivalDate ≤ dateOf w.startsAt.wall)

/-- The occupancy rule of `verify_window`: the row of an active stay refuses the window. -/
def occupied (z : Zone) (p : Property) (r : Row) (w : Window) : Bool :=
  let date := dateOf w.startsAt.wall
  if !r.listed w then false
  else if r.arrivalDate < date ∧ r.departureDate = date then true
  else if r.arrivalDate < date ∧ date < r.departureDate then true
  else if r.departureDate < date then false
  else if !validHour (r.inHour p) || !validHour (r.outHour p) then true
  else
    before z w.source (atHour r.arrivalDate (r.inHour p)) w.endsAt turnover &&
      after z w.source (atHour r.departureDate (r.outHour p)) w.startsAt

/-! ### Offsets -/

variable {z : Zone} {p : Property} {r : Row} {w : Window} {m : Moment} {source : Source} {now checkIn checkOut : ℤ}
  {allowStarted allowElapsed : Bool}

/-- What is known of the clocks at a moment. -/
structure Zone.Reads (z : Zone) (m : Moment) : Prop where
  bounds : z.base ≤ m.wall - m.instant ∧ m.wall - m.instant ≤ z.base + hour
  settled : ∀ date x, Settled date m.wall → Settled date x → m.wall - m.instant = x - z.instant x

theorem Zone.Carries.reads (h : z.Carries source m) : z.Reads m := by
  cases source with
  | form =>
    have h : m.instant = z.instant m.wall := h
    refine ⟨?_, fun date x hm hx => ?_⟩
    · rw [h]
      exact z.instant_bounds m.wall
    · rw [h]
      exact z.settled date m.wall x hm hx
  | database =>
    have h : m.wall = z.wall m.instant := h
    refine ⟨?_, fun date x hm hx => ?_⟩
    · rw [h]
      exact z.wall_bounds m.instant
    · have hback : z.instant m.wall = m.instant := by
        rw [h] at hm ⊢
        exact z.wall_settled date m.instant hm
      rw [← z.settled date m.wall x hm hx, hback]

/-- A window that `validate_window` accepts begins after midnight and ends by noon of one date. -/
theorem validateWindow_eq_true (h : validateWindow now allowStarted allowElapsed w = true) :
    ∃ date s e, w.startsAt.wall = date * day + s ∧ w.endsAt.wall = date * day + e ∧ 0 < s ∧ s < e ∧ e ≤ 12 * hour ∧
      dateOf w.startsAt.wall = date := by
  simp only [validateWindow, Bool.and_eq_true, beq_iff_eq, decide_eq_true_eq] at h
  obtain ⟨⟨⟨⟨⟨⟨hdate, hs⟩, hse⟩, he⟩, -⟩, -⟩, -⟩ := h
  refine ⟨dateOf w.startsAt.wall, timeOf w.startsAt.wall, timeOf w.endsAt.wall, ?_, ?_, hs, hse, he, rfl⟩
  · simp only [dateOf, timeOf, day, hour]
    omega
  · rw [hdate]
    simp only [dateOf, timeOf, day, hour]
    omega

theorem hour_bounds (h : Option (Fin 25)) {n : ℤ} (hn : 0 ≤ n) (hn' : n ≤ 24) :
    0 ≤ h.elim n (fun k => ((k : ℕ) : ℤ)) ∧ h.elim n (fun k => ((k : ℕ) : ℤ)) ≤ 24 := by
  cases h with
  | none => exact ⟨hn, hn'⟩
  | some k =>
    have := k.isLt
    simp only [Option.elim_some]
    omega

/-! ### The three tests -/

/-- A window that was accepted, as its zone reads it. -/
structure Accepted (z : Zone) (w : Window) (date s e : ℤ) : Prop where
  start : w.startsAt.wall = date * day + s
  stop : w.endsAt.wall = date * day + e
  pos : 0 < s
  lt : s < e
  le : e ≤ 12 * hour
  date : dateOf w.startsAt.wall = date
  startReads : z.Reads w.startsAt
  stopReads : z.Reads w.endsAt

section Tests

variable {date s e : ℤ}

/-- Local times that are an hour more apart than they have to be are in order whatever the clocks do. -/
theorem Zone.Reads.lt_instant (h : z.Reads m) {x : ℤ} (hx : m.wall + hour < x) : m.instant < z.instant x := by
  have hb := h.bounds
  have hi := z.instant_bounds x
  omega

theorem Zone.Reads.instant_lt (h : z.Reads m) {x : ℤ} (hx : x + hour < m.wall) : z.instant x < m.instant := by
  have hb := h.bounds
  have hi := z.instant_bounds x
  omega

theorem before_of_lt (h : z.Reads m) {x pad : ℤ} (hx : x + hour < m.wall + pad) : before z source x m pad = true := by
  have hb := h.bounds
  have hi := z.instant_bounds x
  have hhour : (0 : ℤ) ≤ hour := by decide
  cases source <;> simp only [before, decide_eq_true_eq] <;> omega

theorem not_before_of_lt (h : z.Reads m) {x pad : ℤ} (hx : m.wall + pad + hour < x) :
    before z source x m pad = false := by
  have hb := h.bounds
  have hi := z.instant_bounds x
  have hhour : (0 : ℤ) ≤ hour := by decide
  cases source <;> simp only [before, decide_eq_false_iff_not] <;> omega

/-- While the clocks do not change the local times decide. -/
theorem before_settled (h : z.Reads m) {d x pad : ℤ} (hm : Settled d m.wall) (hx : Settled d x) :
    before z source x m pad = decide (x < m.wall + pad) := by
  have hs := h.settled d x hm hx
  cases source with
  | form => rfl
  | database =>
    simp only [before, decide_eq_decide]
    omega

theorem after_of_lt (h : z.Reads m) {x : ℤ} (hx : m.wall + hour < x) : after z source x m = true := by
  have hlt := h.lt_instant hx
  have hhour : (0 : ℤ) ≤ hour := by decide
  cases source <;> simp only [after, decide_eq_true_eq] <;> omega

theorem after_settled (h : z.Reads m) {d x : ℤ} (hm : Settled d m.wall) (hx : Settled d x) :
    after z source x m = decide (m.wall < x) := by
  have hs := h.settled d x hm hx
  cases source with
  | form => rfl
  | database =>
    simp only [after, decide_eq_decide]
    omega

/-- A stay that departs before the date of the morning has left by midnight. -/
theorem Accepted.gone (hm : Accepted z w date s e) {x : ℤ} (hx : x ≤ date * day) :
    ¬ w.startsAt.instant < z.instant x := by
  have hstart := hm.start
  have hpos := hm.pos
  by_cases hfar : x + hour < w.startsAt.wall
  · have := hm.startReads.instant_lt hfar
    omega
  · have hsettled := hm.startReads.settled (date - 1) x
      (by simp only [Settled, day, hour] at *; omega) (by simp only [Settled, day, hour] at *; omega)
    omega

/-- The stay of the window is there before the morning, or arrives on its date and leaves no turnover, and it departs later,
or on its date and after the window starts. -/
theorem overnightConflicts_iff (hm : Accepted z w date s e) (hstay : checkIn < checkOut) :
    overnightConflicts z p checkIn checkOut w = true ↔
      checkIn < date ∧ date < checkOut ∨
        checkIn < date ∧ checkOut = date ∧ w.startsAt.instant < z.instant (p.checkOut checkOut) ∨
        checkIn = date ∧ z.instant (p.checkIn checkIn - turnover) < w.endsAt.instant := by
  obtain ⟨hin, hin'⟩ := hour_bounds p.displayCheckInHour (n := 15) (by decide) (by decide)
  obtain ⟨hout, hout'⟩ := hour_bounds p.displayCheckOutHour (n := 12) (by decide) (by decide)
  rw [overnightConflicts, Bool.and_eq_true, decide_eq_true_eq, decide_eq_true_eq]
  have hin_eq : p.checkIn checkIn - turnover =
      checkIn * day + (p.displayCheckInHour.elim 15 fun h => ((h : ℕ) : ℤ)) * hour - turnover := rfl
  have hout_eq : p.checkOut checkOut = checkOut * day + (p.displayCheckOutHour.elim 12 fun h => ((h : ℕ) : ℤ)) * hour := rfl
  have hgone : checkOut < date → ¬ w.startsAt.instant < z.instant (p.checkOut checkOut) := fun h =>
    hm.gone (by rw [hout_eq]; simp only [day, hour]; omega)
  obtain ⟨hstart, hstop, hpos, hlt, hle, -, hs, he⟩ := hm
  -- a stay that has arrived before the morning is there until it departs
  have harrived : checkIn < date → z.instant (p.checkIn checkIn - turnover) < w.endsAt.instant := fun h =>
    he.instant_lt (by rw [hin_eq]; simp only [day, hour, turnover] at *; omega)
  have hcoming : date < checkIn → ¬ z.instant (p.checkIn checkIn - turnover) < w.endsAt.instant := fun h => by
    have := he.lt_instant (x := p.checkIn checkIn - turnover) (by rw [hin_eq]; simp only [day, hour, turnover] at *; omega)
    omega
  have hstaying : date < checkOut → w.startsAt.instant < z.instant (p.checkOut checkOut) := fun h =>
    hs.lt_instant (by rw [hout_eq]; simp only [day, hour] at *; omega)
  rcases Int.lt_trichotomy checkIn date with h | h | h
  · rcases Int.lt_trichotomy checkOut date with h' | h' | h'
    · have := hgone h'
      omega
    · have := harrived h
      omega
    · have := harrived h
      have := hstaying h'
      omega
  · have := hstaying (by omega)
    omega
  · have := hcoming h
    omega

/-- With the fixed hours a stay is in the way exactly if it arrives before the date of the morning and has not departed by
then. -/
theorem localInflightConflict_iff (hm : Accepted z w date s e) :
    localInflightConflict z checkIn checkOut w = true ↔ checkIn < date ∧ date ≤ checkOut := by
  obtain ⟨hstart, hstop, hpos, hlt, hle, hdate, hs, he⟩ := hm
  simp only [localInflightConflict, hdate, Bool.and_eq_true, decide_eq_true_eq]
  constructor
  · rintro ⟨⟨⟨hin, hout⟩, hbefore⟩, -⟩
    have hne : checkIn ≠ date := by
      rintro rfl
      by_cases hfar : e + 4 * hour < 15 * hour
      · rw [not_before_of_lt he (by simp only [atHour, day, hour, turnover] at *; omega)] at hbefore
        cases hbefore
      · rw [before_settled he (d := checkIn) (by simp only [Settled, day, hour] at *; omega)
          (by simp only [Settled, atHour, day, hour] at *; omega), decide_eq_true_eq] at hbefore
        simp only [atHour, day, hour, turnover] at *
        omega
    exact ⟨by omega, hout⟩
  · rintro ⟨hin, hout⟩
    refine ⟨⟨⟨Int.le_of_lt hin, hout⟩, before_of_lt he ?_⟩, ?_⟩
    · simp only [atHour, day, hour, turnover] at *
      omega
    · by_cases hfar : w.startsAt.wall + hour < atHour checkOut 12
      · exact after_of_lt hs hfar
      · have hdeparts : checkOut = date := by
          simp only [atHour, day, hour] at *
          omega
        rw [after_settled hs (d := date) (by simp only [Settled, atHour, day, hour] at *; omega)
          (by simp only [Settled, atHour, day, hour] at *; omega), decide_eq_true_eq]
        simp only [atHour, day, hour] at *
        omega

/-- The row leaves the turnover after a window on the date of its arrival. -/
def Row.leavesTurnover (z : Zone) (p : Property) (r : Row) (w : Window) : Prop :=
  validHour (r.inHour p) = true ∧ validHour (r.outHour p) = true ∧
    before z w.source (atHour r.arrivalDate (r.inHour p)) w.endsAt turnover = false

/-- A row is in the way if it arrives before the date of the morning and has not departed by then, or arrives on it and
leaves no turnover. -/
theorem occupied_iff (hm : Accepted z w date s e) (hstay : r.arrivalDate < r.departureDate) :
    occupied z p r w = true ↔
      r.arrivalDate < date ∧ date ≤ r.departureDate ∨ r.arrivalDate = date ∧ ¬ r.leavesTurnover z p w := by
  obtain ⟨hstart, hstop, hpos, hlt, hle, hdate, hs, he⟩ := hm
  simp only [occupied, hdate]
  by_cases hlisted : r.listed w = true
  swap
  · have hnot : ¬ (date - 1 ≤ r.departureDate ∧ r.arrivalDate ≤ date) := by
      simpa [Row.listed, hdate] using hlisted
    simp only [hlisted, Bool.not_false, if_true, Bool.false_eq_true, false_iff]
    omega
  have hin : date - 1 ≤ r.departureDate ∧ r.arrivalDate ≤ date := by simpa [Row.listed, hdate] using hlisted
  simp only [hlisted, Bool.not_true, Bool.false_eq_true, if_false]
  by_cases harrived : r.arrivalDate < date
  · rcases Int.lt_trichotomy r.departureDate date with h | h | h
    · rw [if_neg (by omega), if_neg (by omega), if_pos h]
      simp only [Bool.false_eq_true, false_iff]
      omega
    · rw [if_pos ⟨harrived, h⟩]
      simp only [true_iff]
      omega
    · rw [if_neg (by omega), if_pos ⟨harrived, h⟩]
      simp only [true_iff]
      omega
  · -- the row arrives on the date of the morning, so it departs later
    have harrival : r.arrivalDate = date := by omega
    rw [if_neg (by omega), if_neg (by omega), if_neg (by omega)]
    by_cases hhours : (!validHour (r.inHour p) || !validHour (r.outHour p)) = true
    · rw [if_pos hhours]
      simp only [Bool.or_eq_true, Bool.not_eq_true'] at hhours
      simp only [true_iff]
      refine .inr ⟨harrival, fun ⟨hi, ho, _⟩ => ?_⟩
      rcases hhours with hhours | hhours
      · exact Bool.false_ne_true (hhours.symm.trans hi)
      · exact Bool.false_ne_true (hhours.symm.trans ho)
    · rw [if_neg hhours]
      simp only [Bool.or_eq_true, Bool.not_eq_true', not_or, Bool.not_eq_false] at hhours
      have hout := hhours.2
      simp only [validHour, Bool.and_eq_true, decide_eq_true_eq] at hout
      have hafter : after z w.source (atHour r.departureDate (r.outHour p)) w.startsAt = true :=
        after_of_lt hs (by simp only [atHour, day, hour] at *; omega)
      rw [hafter, Bool.and_true]
      simp only [Row.leavesTurnover, hhours.1, hhours.2, true_and, Bool.not_eq_false]
      constructor
      · exact fun h => .inr ⟨harrival, h⟩
      · rintro (⟨h, -⟩ | ⟨-, h⟩)
        · exact absurd h harrived
        · exact h

/-- A stay that departs on the date of the morning is displayed to be there when the window starts; one that arrives on it
leaves the turnover, by the hour that is displayed and by those of its row. -/
def Agreed (z : Zone) (p : Property) (r : Row) (w : Window) : Prop :=
  (r.arrivalDate < dateOf w.startsAt.wall → r.departureDate = dateOf w.startsAt.wall →
      w.startsAt.instant < z.instant (p.checkOut r.departureDate)) ∧
    (r.arrivalDate = dateOf w.startsAt.wall →
      w.endsAt.instant ≤ z.instant (p.checkIn r.arrivalDate - turnover) ∧ r.leavesTurnover z p w)

end Tests

/-- The three tests of an overnight stay and a morning agree exactly if the stay is displayed to be there until a morning of
its departure starts, and leaves the turnover after a morning of its arrival. -/
theorem conflicts_agree_iff (hs : z.Carries w.source w.startsAt) (he : z.Carries w.source w.endsAt)
    (hw : validateWindow now allowStarted allowElapsed w = true) (hstay : r.arrivalDate < r.departureDate) :
    (overnightConflicts z p r.arrivalDate r.departureDate w = localInflightConflict z r.arrivalDate r.departureDate w ∧
      overnightConflicts z p r.arrivalDate r.departureDate w = occupied z p r w) ↔ Agreed z p r w := by
  obtain ⟨date, s, e, hstart, hstop, hpos, hlt, hle, hdate⟩ := validateWindow_eq_true hw
  have hm : Accepted z w date s e := ⟨hstart, hstop, hpos, hlt, hle, hdate, hs.reads, he.reads⟩
  have hO := overnightConflicts_iff (p := p) hm hstay
  have hL : localInflightConflict z r.arrivalDate r.departureDate w = true ↔
      r.arrivalDate < date ∧ date ≤ r.departureDate := localInflightConflict_iff hm
  have hV := occupied_iff (p := p) hm hstay
  have hiff : ∀ a b : Bool, a = b ↔ (a = true ↔ b = true) := by decide
  rw [hiff _ (localInflightConflict ..), hiff _ (occupied ..), hO, hL, hV, Agreed, hdate]
  have hturnover : w.endsAt.instant ≤ z.instant (p.checkIn r.arrivalDate - turnover) ↔
      ¬ z.instant (p.checkIn r.arrivalDate - turnover) < w.endsAt.instant := Int.not_lt.symm
  rw [hturnover]
  clear hO hL hV hturnover
  generalize (w.startsAt.instant < z.instant (p.checkOut r.departureDate)) = there
  generalize (z.instant (p.checkIn r.arrivalDate - turnover) < w.endsAt.instant) = late
  generalize r.leavesTurnover z p w = leaves
  rcases Int.lt_trichotomy r.arrivalDate date with h | h | h
  · have hne : ¬ r.arrivalDate = date := by omega
    rcases Int.lt_trichotomy r.departureDate date with h' | h' | h'
    · have hle : ¬ date ≤ r.departureDate := by omega
      have hlt : ¬ date < r.departureDate := by omega
      have hne' : ¬ r.departureDate = date := by omega
      simp [h, hne, hle, hlt, hne']
    · simp [h, hne, h']
    · have hle : date ≤ r.departureDate := by omega
      have hne' : ¬ r.departureDate = date := by omega
      simp [h, hne, hle, h', hne']
  · have hlt : ¬ r.arrivalDate < date := by omega
    simp only [h, Int.lt_irrefl, false_and, false_or, true_and, iff_false, false_imp_iff, forall_true_left]
    constructor
    · rintro ⟨hlate, hsame⟩
      exact ⟨hlate, not_not.1 fun hleaves => hlate (hsame.2 hleaves)⟩
    · rintro ⟨hlate, hleaves⟩
      exact ⟨hlate, fun hl => absurd hl hlate, fun hnot => absurd hleaves hnot⟩
  · have hlt : ¬ r.arrivalDate < date := by omega
    have hne : ¬ r.arrivalDate = date := by omega
    simp [hlt, hne]

/-! ### A morning from nine to eleven -/

/-- Three hours ahead all year. -/
def riyadh : Zone where
  wall t := t + 3 * hour
  instant x := x - 3 * hour
  base := 3 * hour
  wall_bounds t := by simp only [hour]; omega
  instant_bounds x := by simp only [hour]; omega
  settled date x y _ _ := by omega
  wall_settled date t _ := by omega

def nineToEleven : Window where
  source := .form
  startsAt := ⟨atHour 20000 6, atHour 20000 9⟩
  endsAt := ⟨atHour 20000 8, atHour 20000 11⟩

/-- A stay that arrives in the afternoon agrees with the morning before it. -/
theorem conflicts_agree_afternoon :
    overnightConflicts riyadh ⟨none, none⟩ 20000 20001 nineToEleven =
        localInflightConflict riyadh 20000 20001 nineToEleven ∧
      overnightConflicts riyadh ⟨none, none⟩ 20000 20001 nineToEleven =
        occupied riyadh ⟨none, none⟩ ⟨20000, 20001, none, none⟩ nineToEleven := by
  have hstart : riyadh.Carries nineToEleven.source nineToEleven.startsAt := by
    show nineToEleven.startsAt.instant = riyadh.instant nineToEleven.startsAt.wall
    decide
  have hend : riyadh.Carries nineToEleven.source nineToEleven.endsAt := by
    show nineToEleven.endsAt.instant = riyadh.instant nineToEleven.endsAt.wall
    decide
  have hwindow : validateWindow (atHour 20000 0) false false nineToEleven = true := by decide
  have hagreed : Agreed riyadh ⟨none, none⟩ ⟨20000, 20001, none, none⟩ nineToEleven :=
    ⟨by decide, fun _ => ⟨by decide, by decide, by decide, by decide⟩⟩
  exact (conflicts_agree_iff hstart hend hwindow (by decide)).2 hagreed

/-- A departure at eight can be sold after the morning, not before it; an arrival at noon can be sold before the morning
while it is being paid for, not after it. -/
theorem departure_sold_in_one_order :
    overnightConflicts riyadh ⟨none, some 8⟩ 19999 20000 nineToEleven = false ∧
      localInflightConflict riyadh 19999 20000 nineToEleven = true ∧
      occupied riyadh ⟨none, some 8⟩ ⟨19999, 20000, none, none⟩ nineToEleven = true ∧
      overnightConflicts riyadh ⟨some 12, none⟩ 20000 20001 nineToEleven = true ∧
      localInflightConflict riyadh 20000 20001 nineToEleven = false := by
  decide

end Apartments.Morning.Overnight
