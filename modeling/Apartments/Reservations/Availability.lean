import Mathlib.Data.Int.Order.Basic
import Mathlib.Data.List.Dedup
import Mathlib.Data.List.Perm.Subperm
import Mathlib.Data.List.Range
import Mathlib.Tactic.SplitIfs

/-!
# The calendar of a stay (`reservations/services/availability.py`)

`resolve_day_inventory` decides from the optional signals of a day whether a night can be sold, and `evaluate_calendar` whether
a stay is. Dates are day numbers. A calendar is read by date; the last of several days with one date counts.
-/

namespace Apartments.Availability

/-- What is read of a `CalendarDay`. -/
structure CalendarDay where
  date : ℕ
  isAvailable : Option Bool
  minimumStay : Option ℤ
  maximumStay : Option ℤ
  closedOnArrival : Option Bool
  closedOnDeparture : Option Bool
  countAvailableUnits : Option ℤ
  availableUnitsToSell : Option ℤ
  countReservedUnits : Option ℤ
  countBlockedUnits : Option ℤ
  desiredUnitsToSell : Option ℤ
deriving DecidableEq

/-- The reason codes. -/
inductive Reason
  | available
  | invalidDates
  | calendarIncomplete
  | closedOnArrival
  | closedOnDeparture
  | minimumStayNotMet
  | maximumStayExceeded
  | inventoryConflict
  | unavailableDates
deriving DecidableEq, Repr

inductive Strategy
  | availableUnitsToSell
  | countAvailableUnits
  | desiredUnitsToSell
  | isAvailable
  | inventoryConflict
  | inventoryUnconfirmed
deriving DecidableEq, Repr

structure InventoryDecision where
  isAvailable : Bool
  strategy : Strategy
  isMultiUnit : Bool
  hasConflict : Bool
deriving DecidableEq

/-- `is_multi_unit`. -/
def isMultiUnit (day : CalendarDay) : Bool :=
  day.countAvailableUnits.isSome || day.availableUnitsToSell.isSome || day.desiredUnitsToSell.isSome ||
    day.countReservedUnits.isSome || day.countBlockedUnits.isSome

/-- `availability_signals`. -/
def availabilitySignals (day : CalendarDay) : List (Strategy × Bool) :=
  (day.availableUnitsToSell.map fun n => (Strategy.availableUnitsToSell, decide (0 < n))).toList ++
    (day.countAvailableUnits.map fun n => (Strategy.countAvailableUnits, decide (0 < n))).toList ++
    (day.desiredUnitsToSell.map fun n => (Strategy.desiredUnitsToSell, decide (0 < n))).toList ++
    (day.isAvailable.map fun b => (Strategy.isAvailable, b)).toList

/-- The strategies of a day with units, the first one that has a signal. -/
def unitStrategies : List Strategy := [.availableUnitsToSell, .countAvailableUnits, .desiredUnitsToSell]

/-- `resolve_day_inventory`. -/
def resolveDayInventory (day : CalendarDay) : InventoryDecision :=
  let signals := availabilitySignals day
  if 1 < (signals.map (·.2)).dedup.length then ⟨false, .inventoryConflict, isMultiUnit day, true⟩
  else if isMultiUnit day then
    match unitStrategies.findSome? fun strategy => (signals.lookup strategy).map (strategy, ·) with
    | some (strategy, available) => ⟨available, strategy, true, false⟩
    | none => ⟨false, .inventoryUnconfirmed, true, false⟩
  else ⟨day.isAvailable == some true, .isAvailable, false, false⟩

/-- `by_date`. -/
def byDate (days : List CalendarDay) (date : ℕ) : Option CalendarDay := days.reverse.find? (·.date == date)

/-- The nights of a stay. -/
def stayDates (checkIn checkOut : ℕ) : List ℕ := (List.range (checkOut - checkIn)).map (checkIn + ·)

/-- The tests on the days of a stay, of which `stayNights` are counted. -/
def evaluateDays (arrival departure : CalendarDay) (nights : List CalendarDay) (stayNights : ℤ) (extension : Bool) :
    Reason :=
  if extension = false ∧ arrival.closedOnArrival = some true then .closedOnArrival
  else if departure.closedOnDeparture = some true then .closedOnDeparture
  else if arrival.minimumStay.any (stayNights < ·) then .minimumStayNotMet
  else if arrival.maximumStay.any (· < stayNights) then .maximumStayExceeded
  else if nights.any fun day => (resolveDayInventory day).hasConflict then .inventoryConflict
  else if nights.any fun day => !(resolveDayInventory day).isAvailable then .unavailableDates
  else .available

/-- `evaluate_calendar`. -/
def evaluateCalendar (days : List CalendarDay) (checkIn checkOut : ℕ) (existingCheckIn : Option ℕ) : Reason :=
  let nights : ℤ := checkOut - checkIn
  let stayNights : ℤ := checkOut - existingCheckIn.getD checkIn
  if nights < 1 ∨ 366 < stayNights ∨ existingCheckIn.any (checkIn ≤ ·) then .invalidDates
  else
    match byDate days checkIn, byDate days checkOut, (stayDates checkIn checkOut).mapM (byDate days) with
    | some arrival, some departure, some nights => evaluateDays arrival departure nights stayNights existingCheckIn.isSome
    | _, _, _ => .calendarIncomplete

/-! ### The signals of a day -/

/-- The counts that say how many units can be sold. -/
def unitCounts (day : CalendarDay) : List ℤ :=
  [day.availableUnitsToSell, day.countAvailableUnits, day.desiredUnitsToSell].filterMap id

/-- Some signal says that the night can be sold, none that it cannot, and of several units some are counted. -/
structure Sellable (day : CalendarDay) : Prop where
  positive : day.isAvailable = some true ∨ ∃ n ∈ unitCounts day, 0 < n
  notNegative : day.isAvailable ≠ some false ∧ ∀ n ∈ unitCounts day, 0 < n
  counted : isMultiUnit day = true → unitCounts day ≠ []

section
variable {day arrival departure : CalendarDay} {days nights : List CalendarDay} {checkIn checkOut date : ℕ}
  {existingCheckIn : Option ℕ}

theorem availabilitySignals_values (day : CalendarDay) : (availabilitySignals day).map (·.2) =
    (unitCounts day).map (fun n => decide (0 < n)) ++ day.isAvailable.toList := by
  unfold availabilitySignals unitCounts
  rcases day.availableUnitsToSell with _ | a <;> rcases day.countAvailableUnits with _ | b <;>
    rcases day.desiredUnitsToSell with _ | c <;> rcases day.isAvailable with _ | d <;> rfl

/-- The signals conflict when one is positive and one is not. -/
theorem conflict_iff (values : List Bool) : 1 < values.dedup.length ↔ true ∈ values ∧ false ∈ values := by
  constructor
  · intro h
    match hd : values.dedup, h with
    | a :: b :: _, _ =>
      have hnodup := List.nodup_dedup values
      have hmem : ∀ v ∈ values.dedup, v ∈ values := fun v hv => List.mem_dedup.1 hv
      rw [hd] at hnodup hmem
      have hne : a ≠ b := fun hab => (List.nodup_cons.1 hnodup).1 (by simp [hab])
      have ha := hmem a (by simp)
      have hb := hmem b (by simp)
      cases a <;> cases b <;> simp_all
  · rintro ⟨ht, hf⟩
    have hsub : [true, false] ⊆ values.dedup := by
      intro v hv
      rw [List.mem_dedup]
      cases v
      · exact hf
      · exact ht
    exact (List.subperm_of_subset (by decide) hsub).length_le

theorem strategy_value (day : CalendarDay) :
    (unitStrategies.findSome? fun strategy => ((availabilitySignals day).lookup strategy).map (strategy, ·)).map (·.2) =
      (unitCounts day).head?.map fun n => decide (0 < n) := by
  unfold availabilitySignals unitCounts unitStrategies
  rcases day.availableUnitsToSell with _ | a <;> rcases day.countAvailableUnits with _ | b <;>
    rcases day.desiredUnitsToSell with _ | c <;> rcases day.isAvailable with _ | d <;> rfl

theorem isMultiUnit_of_unitCounts (h : unitCounts day ≠ []) : isMultiUnit day = true := by
  unfold unitCounts at h
  unfold isMultiUnit
  rcases ha : day.availableUnitsToSell with _ | a <;> rcases hb : day.countAvailableUnits with _ | b <;>
    rcases hc : day.desiredUnitsToSell with _ | c <;> simp_all

/-- A night is sold exactly if it is sellable. -/
theorem resolveDayInventory_iff : (resolveDayInventory day).isAvailable = true ↔ Sellable day := by
  have hvalues : ∀ b, b ∈ (availabilitySignals day).map (·.2) ↔
      (∃ n ∈ unitCounts day, decide (0 < n) = b) ∨ day.isAvailable = some b := by
    intro b
    rw [availabilitySignals_values, List.mem_append, List.mem_map, Option.mem_toList]
  unfold resolveDayInventory
  dsimp only
  split_ifs with hconflict hmulti
  · -- a positive and a negative signal
    obtain ⟨-, hfalse⟩ := (conflict_iff _).1 hconflict
    refine iff_of_false nofun fun h => ?_
    rcases (hvalues false).1 hfalse with ⟨n, hn, hle⟩ | hno
    · exact of_decide_eq_false hle (h.notNegative.2 n hn)
    · exact h.notNegative.1 hno
  · have hvalue := strategy_value day
    cases hcounts : unitCounts day with
    | nil =>
      rw [hcounts] at hvalue
      have hnone := Option.map_eq_none_iff.1 hvalue
      rw [hnone]
      exact iff_of_false nofun fun h => h.counted hmulti hcounts
    | cons n ns =>
      rw [hcounts] at hvalue
      obtain ⟨⟨strategy, available⟩, hfound, havailable⟩ := Option.map_eq_some_iff.1 hvalue
      rw [hfound]
      dsimp only at havailable ⊢
      rw [havailable, decide_eq_true_iff]
      constructor
      · intro hpos
        -- no signal differs from a positive one
        have hnone : false ∉ (availabilitySignals day).map (·.2) := fun hfalse =>
          hconflict ((conflict_iff _).2 ⟨(hvalues true).2 (.inl ⟨n, by simp [hcounts], by simpa using hpos⟩), hfalse⟩)
        rw [hvalues, not_or] at hnone
        refine ⟨.inr ⟨n, by simp [hcounts], hpos⟩, ⟨hnone.2, fun m hm => ?_⟩, by simp [hcounts]⟩
        by_contra hle
        exact hnone.1 ⟨m, hm, by simpa using hle⟩
      · intro h
        exact h.notNegative.2 n (by simp [hcounts])
  · have hcounts : unitCounts day = [] := by
      by_contra h
      exact hmulti (isMultiUnit_of_unitCounts h)
    dsimp only
    rw [beq_iff_eq]
    constructor
    · intro h
      exact ⟨.inl h, ⟨by simp [h], by simp [hcounts]⟩, fun hm => absurd hm hmulti⟩
    · intro h
      rcases h.positive with h | ⟨n, hn, -⟩
      · exact h
      · rw [hcounts] at hn
        cases hn

theorem hasConflict_not_available (h : (resolveDayInventory day).hasConflict = true) :
    (resolveDayInventory day).isAvailable = false := by
  unfold resolveDayInventory at h ⊢
  dsimp only at h ⊢
  split_ifs at h ⊢ with hconflict hmulti
  · rfl
  · split at h <;> simp at h

/-! ### A stay -/

theorem mem_stayDates : date ∈ stayDates checkIn checkOut ↔ checkIn ≤ date ∧ date < checkOut := by
  simp only [stayDates, List.mem_map, List.mem_range]
  constructor
  · rintro ⟨n, hn, rfl⟩
    omega
  · intro h
    exact ⟨date - checkIn, by omega, by omega⟩

theorem evaluateDays_eq_available {stayNights : ℤ} {extension : Bool} :
    evaluateDays arrival departure nights stayNights extension = .available ↔
      (extension = false → arrival.closedOnArrival ≠ some true) ∧ departure.closedOnDeparture ≠ some true ∧
      (∀ n, arrival.minimumStay = some n → n ≤ stayNights) ∧ (∀ n, arrival.maximumStay = some n → stayNights ≤ n) ∧
      ∀ day ∈ nights, Sellable day := by
  have hsellable : (∀ day ∈ nights, Sellable day) ↔ ¬ (nights.any fun day => !(resolveDayInventory day).isAvailable) = true := by
    simp only [← resolveDayInventory_iff, List.any_eq_true, not_exists, not_and, Bool.not_eq_true', Bool.not_eq_false]
  have hmin : (∀ n, arrival.minimumStay = some n → n ≤ stayNights) ↔ ¬ arrival.minimumStay.any (stayNights < ·) = true := by
    cases arrival.minimumStay <;> simp
  have hmax : (∀ n, arrival.maximumStay = some n → stayNights ≤ n) ↔ ¬ arrival.maximumStay.any (· < stayNights) = true := by
    cases arrival.maximumStay <;> simp
  rw [hsellable, hmin, hmax]
  unfold evaluateDays
  split_ifs with h1 h2 h3 h4 h5 h6
  · exact iff_of_false nofun fun h => h.1 h1.1 h1.2
  · exact iff_of_false nofun fun h => h.2.1 h2
  · exact iff_of_false nofun fun h => h.2.2.1 h3
  · exact iff_of_false nofun fun h => h.2.2.2.1 h4
  · refine iff_of_false nofun fun h => h.2.2.2.2 ?_
    obtain ⟨day, hday, hconflict⟩ := List.any_eq_true.1 h5
    exact List.any_eq_true.2 ⟨day, hday, by simp [hasConflict_not_available hconflict]⟩
  · exact iff_of_false nofun fun h => h.2.2.2.2 h6
  · exact iff_of_true rfl ⟨fun he hc => h1 ⟨he, hc⟩, h2, h3, h4, h6⟩

theorem mapM_eq_some {α β : Type} {f : α → Option β} {l : List α} {l' : List β} :
    l.mapM f = some l' ↔ List.Forall₂ (fun a b => f a = some b) l l' := by
  induction l generalizing l' with
  | nil => simp [eq_comm]
  | cons a l ih =>
    simp only [List.mapM_cons, List.forall₂_cons_left_iff, ← ih, Option.bind_eq_bind, Option.bind_eq_some_iff, pure,
      Option.some.injEq]
    constructor
    · rintro ⟨b, hb, bs, hbs, rfl⟩
      exact ⟨b, bs, hb, hbs, rfl⟩
    · rintro ⟨b, bs, hb, hbs, rfl⟩
      exact ⟨b, hb, bs, hbs, rfl⟩

/-- What makes a stay available. -/
structure Open (calendar : ℕ → Option CalendarDay) (checkIn checkOut : ℕ) (existingCheckIn : Option ℕ) : Prop where
  counted : checkIn < checkOut ∧ (∀ first, existingCheckIn = some first → first < checkIn) ∧
    checkOut ≤ existingCheckIn.getD checkIn + 366
  arrival : ∃ day, calendar checkIn = some day ∧ (existingCheckIn = none → day.closedOnArrival ≠ some true) ∧
    (∀ n, day.minimumStay = some n → n ≤ (checkOut : ℤ) - existingCheckIn.getD checkIn) ∧
    ∀ n, day.maximumStay = some n → (checkOut : ℤ) - existingCheckIn.getD checkIn ≤ n
  departure : ∃ day, calendar checkOut = some day ∧ day.closedOnDeparture ≠ some true
  nights : ∀ date, checkIn ≤ date → date < checkOut → ∃ day, calendar date = some day ∧ Sellable day

theorem nights_iff : (∃ nights, (stayDates checkIn checkOut).mapM (byDate days) = some nights ∧
    ∀ day ∈ nights, Sellable day) ↔
    ∀ date, checkIn ≤ date → date < checkOut → ∃ day, byDate days date = some day ∧ Sellable day := by
  simp only [mapM_eq_some]
  constructor
  · rintro ⟨nights, hnights, hall⟩ date hle hlt
    obtain ⟨i, hi, hdate⟩ := List.mem_iff_getElem.1 (mem_stayDates.2 ⟨hle, hlt⟩)
    have hlen := hnights.length_eq
    have hday := hnights.get hi (hlen ▸ hi)
    rw [List.get_eq_getElem, hdate] at hday
    exact ⟨_, hday, hall _ (List.getElem_mem _)⟩
  · intro h
    have hall : ∀ dates : List ℕ, (∀ date ∈ dates, ∃ day, byDate days date = some day ∧ Sellable day) →
        ∃ nights, List.Forall₂ (fun date day => byDate days date = some day) dates nights ∧
          ∀ day ∈ nights, Sellable day := by
      intro dates hdates
      induction dates with
      | nil => exact ⟨[], .nil, by simp⟩
      | cons date dates ih =>
        obtain ⟨hdate, hdates⟩ := List.forall_mem_cons.1 hdates
        obtain ⟨day, hday, hs⟩ := hdate
        obtain ⟨nights, hnights, hall⟩ := ih hdates
        exact ⟨day :: nights, .cons hday hnights, List.forall_mem_cons.2 ⟨hs, hall⟩⟩
    exact hall _ fun date hdate => h date (mem_stayDates.1 hdate).1 (mem_stayDates.1 hdate).2

/-- A stay is available exactly if it is open, whatever the calendar and the stay are. -/
theorem available_iff_open (days : List CalendarDay) (checkIn checkOut : ℕ) (existingCheckIn : Option ℕ) :
    evaluateCalendar days checkIn checkOut existingCheckIn = .available ↔
      Open (byDate days) checkIn checkOut existingCheckIn := by
  have hdates : ¬ ((checkOut : ℤ) - checkIn < 1 ∨ 366 < (checkOut : ℤ) - existingCheckIn.getD checkIn ∨
      existingCheckIn.any (checkIn ≤ ·) = true) ↔
      checkIn < checkOut ∧ (∀ first, existingCheckIn = some first → first < checkIn) ∧
        checkOut ≤ existingCheckIn.getD checkIn + 366 := by
    cases existingCheckIn with
    | none =>
      simp only [Option.getD_none, Option.any_none, Bool.false_eq_true, or_false, reduceCtorEq, false_implies,
        implies_true, true_and]
      omega
    | some first =>
      simp only [Option.getD_some, Option.any_some, decide_eq_true_eq, Option.some.injEq, forall_eq']
      omega
  unfold evaluateCalendar
  dsimp only
  split_ifs with hinvalid
  · exact iff_of_false nofun fun h => hdates.2 h.counted hinvalid
  · have hcounted := hdates.1 hinvalid
    constructor
    · intro h
      split at h
      · rename_i arrival departure nights harrival hdeparture hnights
        obtain ⟨hclosed, hdepart, hmin, hmax, hall⟩ := evaluateDays_eq_available.1 h
        refine ⟨hcounted, ⟨arrival, harrival, fun hnone => hclosed (by simp [hnone]), hmin, hmax⟩,
          ⟨departure, hdeparture, hdepart⟩, nights_iff.1 ⟨nights, hnights, hall⟩⟩
      · cases h
    · intro h
      obtain ⟨arrival, harrival, hclosed, hmin, hmax⟩ := h.arrival
      obtain ⟨departure, hdeparture, hdepart⟩ := h.departure
      obtain ⟨nights, hnights, hall⟩ := nights_iff.2 h.nights
      rw [harrival, hdeparture, hnights]
      refine evaluateDays_eq_available.2 ⟨fun hext => hclosed ?_, hdepart, hmin, hmax, hall⟩
      cases hex : existingCheckIn with
      | none => rfl
      | some first => simp [hex] at hext

/-- Without a positive signal on every night, or with a negative one on some night, no stay is available. -/
theorem availability_is_conservative (days : List CalendarDay) (checkIn checkOut : ℕ) (existingCheckIn : Option ℕ) :
    (evaluateCalendar days checkIn checkOut existingCheckIn = .available ↔
      Open (byDate days) checkIn checkOut existingCheckIn) ∧
    ∀ date day, checkIn ≤ date → date < checkOut → byDate days date = some day →
      ((day.isAvailable ≠ some true ∧ ∀ n ∈ unitCounts day, n ≤ 0) ∨
        (day.isAvailable = some false ∨ ∃ n ∈ unitCounts day, n ≤ 0)) →
      evaluateCalendar days checkIn checkOut existingCheckIn ≠ .available := by
  refine ⟨available_iff_open .., fun date day hle hlt hday hbad h => ?_⟩
  obtain ⟨day', hday', hs⟩ := ((available_iff_open ..).1 h).nights date hle hlt
  obtain rfl : day = day' := Option.some.inj (hday.symm.trans hday')
  rcases hbad with ⟨hnot, hnone⟩ | hno | ⟨n, hn, hle⟩
  · rcases hs.positive with h | ⟨n, hn, hpos⟩
    · exact hnot h
    · exact absurd hpos (not_lt.2 (hnone n hn))
  · exact hs.notNegative.1 hno
  · exact absurd (hs.notNegative.2 n hn) (not_lt.2 hle)

end

/-- A day with one unit that can be sold. -/
def freeDay (date : ℕ) : CalendarDay := ⟨date, some true, none, none, none, none, none, none, none, none, none⟩

/-- The second night has a unit to sell and none that is desired. -/
def conflictDay (date : ℕ) : CalendarDay :=
  ⟨date, none, none, none, none, none, none, some 1, none, none, some 0⟩

theorem availability_is_conservative_conflict :
    evaluateCalendar [freeDay 1, conflictDay 2, freeDay 3] 1 3 none ≠ .available :=
  (availability_is_conservative [freeDay 1, conflictDay 2, freeDay 3] 1 3 none).2 2 (conflictDay 2) (by decide) (by decide)
    (by decide) (.inr (.inr ⟨0, by decide, by decide⟩))

end Apartments.Availability
