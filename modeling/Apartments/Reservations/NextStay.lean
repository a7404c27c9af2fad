import Apartments.Lib.Outcome
import Apartments.Lib.Traverse
import Apartments.Reservations.Availability

/-!
# The next stay of a calendar (`reservations/services/sama_next_availability.py`)

The search fetches the calendar in windows, only as far as it needs it, and evaluates one stay after the other: the arrivals
by their dates, and for an arrival the durations from the shortest. What the channel manager answers for a window is
`source`, nothing if the request fails, and `expired n` says whether the deadline has passed when it is looked at for the
`n`-th time.
-/

namespace Apartments.Availability

/-- How a search ends that does not answer. -/
inductive Refusal
  | invalidDates
  | invalidGuests
  | timeBound
  | searchBound
  | incompleteCalendar
  | incompleteStay
  | client
  | keyError
  | unfinished
deriving DecidableEq, Repr

/-- What the search is given; a guest who asks without dates asks from today. -/
structure Enquiry where
  today : ℕ
  checkIn : Option ℕ
  checkOut : Option ℕ
  guests : Option ℤ
  personCapacity : Option ℤ
deriving DecidableEq

inductive Status
  | capacityExceeded
  | verifiedCalendar
  | noCalendarStayInWindow
deriving DecidableEq, Repr

structure Stay where
  checkIn : ℕ
  checkOut : ℕ
  nights : ℕ
deriving DecidableEq, Repr

structure Answer where
  status : Status
  requestedReason : Option Reason
  nextStay : Option Stay
  searchedThrough : Option ℕ
deriving DecidableEq

/-- What the search has so far. -/
structure Search where
  days : List CalendarDay
  cursor : ℕ
  requestedReason : Option Reason
  checks : ℕ
deriving DecidableEq

/-- What a search does not change: the first date, the requested end and the nights it makes, and the last date it may need. -/
structure Bounds where
  start : ℕ
  finish : Option ℕ
  nights : Option ℕ
  lastDay : ℕ
deriving DecidableEq

section
variable (source : ℕ → ℕ → Option (List CalendarDay)) (expired : ℕ → Bool) (b : Bounds)

/-- `check_deadline`. -/
def checkDeadline (s : Search) : Except Refusal Search :=
  if expired s.checks then .error .timeBound else .ok { s with checks := s.checks + 1 }

/-- The days are those of the window, one for each date. -/
def completeWindow (first last : ℕ) (days : List CalendarDay) : Bool :=
  let expected := List.range' first (last + 1 - first)
  let dates := days.map (·.date)
  dates.all expected.contains && expected.all dates.contains && days.length == expected.length

/-- `requested_reason` after a window. -/
def requestedReason (days : List CalendarDay) (s : Search) : Option Reason :=
  match b.finish with
  | none => s.requestedReason
  | some finish =>
    if (byDate days finish).isSome && s.requestedReason.isNone then some (evaluateCalendar days b.start finish none)
    else s.requestedReason

/-- A round of the loop of `ensure_coverage`. -/
def fetchWindow (required : ℕ) (s : Search) : Except Refusal Search := do
  let s ← checkDeadline expired s
  raiseIf (b.lastDay < required) .searchBound
  let windowEnd := max (s.cursor + 1) (min (s.cursor + 90) b.lastDay)
  let document ← found (source s.cursor windowEnd) .client
  let s ← checkDeadline expired s
  raiseIf (completeWindow s.cursor windowEnd document = false) .incompleteCalendar
  let days := s.days ++ document
  return { s with days := days, cursor := windowEnd + 1, requestedReason := requestedReason b days s }

/-- The loop of `ensure_coverage`. -/
def coverFrom (required : ℕ) : ℕ → Search → Except Refusal Search
  | rounds, s =>
    if (byDate s.days required).isSome then .ok s
    else
      match rounds with
      | 0 => .error .unfinished
      | rounds + 1 => do
        let s ← fetchWindow source expired b required s
        coverFrom required rounds s

/-- `ensure_coverage`; a window has two days at least. -/
def ensureCoverage (required : ℕ) (s : Search) : Except Refusal Search :=
  coverFrom source expired b required (required + 1) s

/-- What the search starts with: the dates to the requested end, if the guest asks for one. -/
def coverRequested : Except Refusal Search :=
  match b.finish with
  | none => .ok ⟨[], b.start, none, 0⟩
  | some finish => ensureCoverage source expired b finish ⟨[], b.start, none, 0⟩

/-- The reasons that end the durations of an arrival. -/
def endsDurations (reason : Reason) : Bool :=
  reason == .unavailableDates || reason == .inventoryConflict || reason == .closedOnArrival ||
    reason == .maximumStayExceeded

/-- The loop over the durations of an arrival; the first one that is accepted. -/
def searchDurations (candidate : ℕ) : List ℕ → Search → Except Refusal (Search × Option ℕ)
  | [], s => .ok (s, none)
  | duration :: durations, s => do
    let s ← checkDeadline expired s
    if ¬ (1 ≤ duration ∧ duration ≤ 366) then searchDurations candidate durations s
    else do
      let s ← ensureCoverage source expired b (candidate + duration) s
      let reason := evaluateCalendar s.days candidate (candidate + duration) none
      raiseIf (reason = .calendarIncomplete) .incompleteStay
      if reason = .available then do
        let s ← checkDeadline expired s
        return (s, some duration)
      else if endsDurations reason then return (s, none)
      else searchDurations candidate durations s

/-- `value or default`. -/
def orElse (value : Option ℤ) (default : ℤ) : ℤ := if value.getD 0 = 0 then default else value.getD 0

/-- `range(minimum, maximum + 1)`. -/
def durations (arrival : CalendarDay) : List ℕ :=
  let minimum : ℤ := (b.nights.map Nat.cast).getD (max 1 (orElse arrival.minimumStay 1))
  let maximum : ℤ := (b.nights.map Nat.cast).getD (min 366 (orElse arrival.maximumStay 366))
  List.range' minimum.toNat (maximum + 1 - minimum).toNat

/-- The loop over the arrivals. -/
def searchArrivals : List ℕ → Search → Except Refusal (Search × Option (ℕ × ℕ))
  | [], s => .ok (s, none)
  | candidate :: candidates, s => do
    let s ← checkDeadline expired s
    let s ← ensureCoverage source expired b candidate s
    let arrival ← found (byDate s.days candidate) .keyError
    if (resolveDayInventory arrival).isAvailable = false ∨ arrival.closedOnArrival = some true then
      searchArrivals candidates s
    else do
      let (s, duration) ← searchDurations source expired b candidate (durations b arrival) s
      match duration with
      | some duration => return (s, some (candidate, duration))
      | none => searchArrivals candidates s

end

/-- The bounds of an enquiry whose dates are valid. -/
def Enquiry.bounds (e : Enquiry) : Except Refusal Bounds := do
  let start := e.checkIn.getD e.today
  let nights := e.checkOut.map fun (finish : ℕ) => (finish : ℤ) - (start : ℤ)
  raiseIf (start < e.today ∨ e.today + 730 < start ∨ (e.checkOut.isSome ∧ e.checkIn = none) ∨
    nights.any (fun n => decide (n < 1) || decide (366 < n))) .invalidDates
  return ⟨start, e.checkOut, nights.map Int.toNat, start + 730 + (nights.map Int.toNat).getD 366⟩

/-- `next_availability`. -/
def nextAvailability (source : ℕ → ℕ → Option (List CalendarDay)) (expired : ℕ → Bool) (e : Enquiry) :
    Except Refusal Answer := do
  let b ← e.bounds
  raiseIf (e.guests.any (fun n => decide (n < 1) || decide (20 < n))) .invalidGuests
  let guests := e.guests.getD 0
  let capacity := e.personCapacity.getD 0
  if guests ≠ 0 ∧ capacity ≠ 0 ∧ capacity < guests then return ⟨.capacityExceeded, none, none, none⟩
  else do
    let s ← coverRequested source expired b
    let (s, stay) ← searchArrivals source expired b (List.range' b.start 731) s
    match stay with
    | some (candidate, duration) =>
      return ⟨.verifiedCalendar, s.requestedReason, some ⟨candidate, candidate + duration, duration⟩, some candidate⟩
    | none => return ⟨.noCalendarStayInWindow, s.requestedReason, none, some (b.start + 730)⟩

end Apartments.Availability
