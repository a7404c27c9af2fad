import Apartments.Reservations.NextStay
import Mathlib.Order.MinMax

/-!
# The stay that is found is the earliest one

The search evaluates a stay on the windows that it has, and leaves an arrival when a longer stay cannot be accepted either.
`Known` is what it knows of the calendar: all dates from the first one to the cursor. A stay whose days are known is
evaluated as on the whole calendar.
-/

namespace Apartments.Availability

/-! ### Stays on calendars that agree -/

section
variable {calendar calendar' : ℕ → Option CalendarDay} {days nights : List CalendarDay} {day arrival departure : CalendarDay}
  {checkIn checkOut m n : ℕ} {existingCheckIn : Option ℕ}

/-- Only the days of the stay are read. -/
theorem Open.congr (h : Open calendar checkIn checkOut existingCheckIn)
    (hsame : ∀ date, checkIn ≤ date → date ≤ checkOut → calendar' date = calendar date) :
    Open calendar' checkIn checkOut existingCheckIn := by
  have hlt := h.counted.1
  refine ⟨h.counted, ?_, ?_, fun date hle hlt => ?_⟩
  · rw [hsame checkIn le_rfl hlt.le]
    exact h.arrival
  · rw [hsame checkOut hlt.le le_rfl]
    exact h.departure
  · rw [hsame date hle hlt.le]
    exact h.nights date hle hlt

theorem evaluateDays_ends {stayNights : ℤ} (h : endsDurations (evaluateDays arrival departure nights stayNights false) = true) :
    arrival.closedOnArrival = some true ∨ (∃ max, arrival.maximumStay = some max ∧ max < stayNights) ∨
      ∃ day ∈ nights, ¬ Sellable day := by
  unfold evaluateDays at h
  split_ifs at h with h1 h2 h3 h4 h5 h6
  · exact .inl h1.2
  · cases h
  · cases h
  · obtain ⟨max, hmax, hlt⟩ := (Option.any_eq_true ..).1 h4
    exact .inr (.inl ⟨max, hmax, of_decide_eq_true hlt⟩)
  · obtain ⟨day, hday, hconflict⟩ := List.any_eq_true.1 h5
    refine .inr (.inr ⟨day, hday, fun hs => ?_⟩)
    rw [← resolveDayInventory_iff, hasConflict_not_available hconflict] at hs
    cases hs
  · obtain ⟨day, hday, hnot⟩ := List.any_eq_true.1 h6
    refine .inr (.inr ⟨day, hday, fun hs => ?_⟩)
    rw [← resolveDayInventory_iff] at hs
    simp [hs] at hnot
  · cases h

/-- What ends the durations of an arrival stands in the way of every longer stay. -/
theorem not_open_of_ends (h : endsDurations (evaluateCalendar days checkIn (checkIn + n) none) = true)
    (hsame : ∀ date, checkIn ≤ date → date ≤ checkIn + n → calendar date = byDate days date) (hle : n ≤ m) :
    ¬ Open calendar checkIn (checkIn + m) none := by
  intro ho
  unfold evaluateCalendar at h
  dsimp only at h
  split_ifs at h with hinvalid
  · cases h
  split at h
  · rename_i arrival departure nights harrival hdeparture hnights
    have hzero : 1 ≤ n := by
      simp only [Int.natCast_add, not_or, not_lt] at hinvalid
      omega
    obtain ⟨arrival', harrival', hclosed, hmin, hmax⟩ := ho.arrival
    rw [hsame checkIn le_rfl (by omega), harrival] at harrival'
    obtain rfl := Option.some.inj harrival'
    rcases evaluateDays_ends h with harr | ⟨max, hmaximum, hlt⟩ | ⟨day, hday, hnot⟩
    · exact hclosed rfl harr
    · have := hmax max hmaximum
      simp only [Option.getD_none, Int.natCast_add] at this hlt
      omega
    · -- the night that is not sold is a night of the longer stay
      obtain ⟨i, hi, rfl⟩ := List.mem_iff_getElem.1 hday
      have hall := mapM_eq_some.1 hnights
      have hi' : i < (stayDates checkIn (checkIn + n)).length := by rwa [hall.length_eq]
      have hdate := hall.get hi' hi
      have hmem := mem_stayDates.1 (List.getElem_mem hi')
      rw [List.get_eq_getElem, List.get_eq_getElem] at hdate
      obtain ⟨day, hday, hs⟩ := ho.nights _ hmem.1 (by omega)
      rw [hsame _ hmem.1 (by omega), hdate] at hday
      exact hnot (Option.some.inj hday ▸ hs)
  · cases h

theorem mapM_isSome {f : ℕ → Option CalendarDay} {l : List ℕ} (h : ∀ d ∈ l, (f d).isSome = true) :
    ∃ days, l.mapM f = some days := by
  induction l with
  | nil => exact ⟨[], rfl⟩
  | cons d l ih =>
    obtain ⟨hd, hl⟩ := List.forall_mem_cons.1 h
    obtain ⟨day, hday⟩ := Option.isSome_iff_exists.1 hd
    obtain ⟨days, hdays⟩ := ih hl
    exact ⟨day :: days, mapM_eq_some.2 (.cons hday (mapM_eq_some.1 hdays))⟩

/-- A calendar with all days of the stay is complete. -/
theorem evaluateCalendar_ne_incomplete (h : ∀ date, checkIn ≤ date → date ≤ checkOut → (byDate days date).isSome = true) :
    evaluateCalendar days checkIn checkOut existingCheckIn ≠ .calendarIncomplete := by
  unfold evaluateCalendar
  dsimp only
  split_ifs with hinvalid
  · nofun
  · have hlt : checkIn < checkOut := by
      simp only [not_or, not_lt] at hinvalid
      omega
    obtain ⟨arrival, harrival⟩ := Option.isSome_iff_exists.1 (h checkIn le_rfl hlt.le)
    obtain ⟨departure, hdeparture⟩ := Option.isSome_iff_exists.1 (h checkOut hlt.le le_rfl)
    obtain ⟨nights, hnights⟩ := mapM_isSome (l := stayDates checkIn checkOut) fun d hd =>
      h d (mem_stayDates.1 hd).1 (mem_stayDates.1 hd).2.le
    rw [harrival, hdeparture, hnights]
    dsimp only
    unfold evaluateDays
    split_ifs <;> nofun

end

/-! ### Calendars by date -/

section
variable {l l' : List CalendarDay} {day : CalendarDay} {date first last : ℕ}

theorem byDate_append (l l' : List CalendarDay) (date : ℕ) : byDate (l ++ l') date = (byDate l' date).or (byDate l date) := by
  rw [byDate, List.reverse_append, List.find?_append]
  rfl

theorem mem_of_byDate (h : byDate l date = some day) : day ∈ l ∧ day.date = date :=
  ⟨List.mem_reverse.1 (List.mem_of_find?_eq_some h), by simpa using List.find?_some h⟩

theorem byDate_isSome : (byDate l date).isSome = true ↔ date ∈ l.map (·.date) := by
  simp [byDate, List.find?_isSome]

theorem completeWindow_dates (h : completeWindow first last l = true) :
    date ∈ l.map (·.date) ↔ first ≤ date ∧ date ≤ last := by
  unfold completeWindow at h
  simp only [Bool.and_eq_true, List.all_eq_true, List.contains_iff_mem] at h
  have hrange : date ∈ List.range' first (last + 1 - first) ↔ first ≤ date ∧ date ≤ last := by
    rw [List.mem_range'_1]
    omega
  rw [← hrange]
  exact ⟨h.1.1 date, h.1.2 date⟩

/-- The days of a list that is taken from a calendar. -/
theorem byDate_map {whole : ℕ → CalendarDay} (hwhole : ∀ d, (whole d).date = d) (dates : List ℕ) :
    byDate (dates.map whole) date = if date ∈ dates then some (whole date) else none := by
  by_cases h : date ∈ dates
  · rw [if_pos h]
    have hlisted : date ∈ (dates.map whole).map (·.date) := by simpa [hwhole] using h
    obtain ⟨day, hday⟩ := Option.isSome_iff_exists.1 (byDate_isSome.2 hlisted)
    obtain ⟨hmem, hdate⟩ := mem_of_byDate hday
    obtain ⟨d, -, rfl⟩ := List.mem_map.1 hmem
    rw [hday, ← hdate, hwhole]
  · rw [if_neg h]
    by_contra hne
    obtain ⟨day, hday⟩ := Option.ne_none_iff_exists'.1 hne
    obtain ⟨hmem, hdate⟩ := mem_of_byDate hday
    obtain ⟨d, hd, rfl⟩ := List.mem_map.1 hmem
    exact h (by rwa [← hdate, hwhole])

end

/-! ### What the search knows -/

/-- The dates from the first one to the cursor are known, by days with `P`. -/
structure Known (P : CalendarDay → Prop) (b : Bounds) (s : Search) : Prop where
  start : b.start ≤ s.cursor
  covered : ∀ date, (byDate s.days date).isSome = true ↔ b.start ≤ date ∧ date < s.cursor
  days : ∀ date day, byDate s.days date = some day → P day
  reason : s.requestedReason ≠ some .calendarIncomplete

/-- A source that serves all windows, each complete. -/
def Serves (source : ℕ → ℕ → Option (List CalendarDay)) : Prop :=
  ∀ first last, ∃ days, source first last = some days ∧ completeWindow first last days = true

/-- The errors of a search that are not its own: the deadline has passed, or a window was not served. -/
def Outside (source : ℕ → ℕ → Option (List CalendarDay)) (expired : ℕ → Bool) (e : Refusal) : Prop :=
  (e = .timeBound ∧ ∃ n, expired n = true) ∨ ((e = .client ∨ e = .incompleteCalendar) ∧ ¬ Serves source)

section
variable {P : CalendarDay → Prop} {source : ℕ → ℕ → Option (List CalendarDay)} {expired : ℕ → Bool} {b : Bounds} {s : Search}
  {required candidate n : ℕ}

theorem Outside.ne {e : Refusal} (h : Outside source expired e) : e ≠ .unfinished ∧ e ≠ .incompleteStay := by
  rcases h with ⟨rfl, -⟩ | ⟨rfl | rfl, -⟩ <;> exact ⟨nofun, nofun⟩

theorem Known.nothing : Known P b ⟨[], b.start, none, 0⟩ where
  start := le_rfl
  covered date := by
    have : byDate [] date = none := rfl
    rw [this]
    simp only [Option.isSome_none, Bool.false_eq_true, false_iff]
    omega
  days date day h := by cases h
  reason := nofun

theorem checkDeadline_spec (s : Search) : Outcome (checkDeadline expired s) (fun s' => s' = { s with checks := s.checks + 1 })
    (Outside source expired) :=
  Outcome.ite (fun h => Outcome.of_error (.inl ⟨rfl, _, h⟩)) fun _ => Outcome.of_ok rfl

theorem Known.checks (h : Known P b s) (k : ℕ) : Known P b { s with checks := k } := ⟨h.start, h.covered, h.days, h.reason⟩

theorem fetchWindow_spec (hsource : ∀ first last days, source first last = some days → ∀ day ∈ days, P day)
    (h : Known P b s) (hrequired : required ≤ b.lastDay) :
    Outcome (fetchWindow source expired b required s) (fun s' => Known P b s' ∧ s.cursor < s'.cursor)
      (Outside source expired) := by
  unfold fetchWindow
  refine Outcome.bind (checkDeadline_spec s) ?_
  rintro _ rfl
  refine Outcome.pass (not_lt.2 hrequired) ?_
  dsimp only
  generalize hlast : max (s.cursor + 1) (min (s.cursor + 90) b.lastDay) = last
  have hcursor : s.cursor < last := hlast ▸ lt_max_of_lt_left (Nat.lt_succ_self _)
  refine Outcome.lookup_of (fun hnone => .inr ⟨.inl rfl, fun hserves => ?_⟩) fun document hdocument => ?_
  · obtain ⟨days, hdays, -⟩ := hserves s.cursor last
    cases hnone.symm.trans hdays
  refine Outcome.bind (checkDeadline_spec _) ?_
  rintro _ rfl
  refine Outcome.guard_of (fun hfalse => .inr ⟨.inr rfl, fun hserves => ?_⟩) fun hcomplete => ?_
  · obtain ⟨days, hdays, hall⟩ := hserves s.cursor last
    obtain rfl := Option.some.inj (hdocument.symm.trans hdays)
    cases hfalse.symm.trans hall
  rw [Bool.not_eq_false] at hcomplete
  have hcovered : ∀ date, (byDate (s.days ++ document) date).isSome = true ↔ b.start ≤ date ∧ date < last + 1 := by
    intro date
    have hnew : date ∈ document.map (·.date) ↔ _ := completeWindow_dates hcomplete
    have hstart := h.start
    rw [byDate_isSome, List.map_append, List.mem_append, hnew, ← byDate_isSome, h.covered]
    dsimp only
    omega
  refine Outcome.of_pure ⟨⟨?_, hcovered, fun date day hday => ?_, ?_⟩, ?_⟩
  · exact h.start.trans (hcursor.le.trans (Nat.le_succ _))
  · rw [byDate_append] at hday
    rcases Option.or_eq_some_iff.1 hday with hnew | ⟨-, hold⟩
    · exact hsource _ _ _ hdocument day (mem_of_byDate hnew).1
    · exact h.days date day hold
  · -- the requested end is evaluated once it is known, with all dates before it
    unfold requestedReason
    split
    · exact h.reason
    · rename_i finish hfinish
      split_ifs with hin
      · obtain ⟨hin, -⟩ := Bool.and_eq_true_iff.1 hin
        rw [hcovered] at hin
        refine fun hsame => evaluateCalendar_ne_incomplete (fun date hle hle' => ?_) (Option.some.inj hsame)
        rw [hcovered]
        exact ⟨hle, Nat.lt_of_le_of_lt hle' hin.2⟩
      · exact h.reason
  · exact hcursor.trans (Nat.lt_succ_self _)

theorem coverFrom_spec (hsource : ∀ first last days, source first last = some days → ∀ day ∈ days, P day)
    (hstart : b.start ≤ required) (hrequired : required ≤ b.lastDay) {rounds : ℕ} (h : Known P b s)
    (hrounds : required < s.cursor + rounds) :
    Outcome (coverFrom source expired b required rounds s) (fun s' => Known P b s' ∧ required < s'.cursor)
      (Outside source expired) := by
  induction rounds generalizing s with
  | zero =>
    unfold coverFrom
    have hin := (h.covered required).2 ⟨hstart, hrounds⟩
    rw [if_pos hin]
    exact ⟨h, hrounds⟩
  | succ rounds ih =>
    unfold coverFrom
    refine Outcome.ite (fun hin => Outcome.of_ok ⟨h, ((h.covered required).1 hin).2⟩) fun _ => ?_
    refine Outcome.bind (fetchWindow_spec hsource h hrequired) fun s' hs' => ih hs'.1 ?_
    omega

theorem ensureCoverage_spec (hsource : ∀ first last days, source first last = some days → ∀ day ∈ days, P day)
    (hstart : b.start ≤ required) (hrequired : required ≤ b.lastDay) (h : Known P b s) :
    Outcome (ensureCoverage source expired b required s) (fun s' => Known P b s' ∧ required < s'.cursor)
      (Outside source expired) :=
  coverFrom_spec hsource hstart hrequired h (by omega)

end

/-! ### The search -/

/-- The days come from one calendar. -/
def Drawn (whole : ℕ → CalendarDay) (day : CalendarDay) : Prop := day = whole day.date

section
variable {whole : ℕ → CalendarDay} {source : ℕ → ℕ → Option (List CalendarDay)} {expired : ℕ → Bool} {b : Bounds}
  {s : Search} {candidate n : ℕ}

theorem Known.byDate {date : ℕ} (h : Known (Drawn whole) b s) (hstart : b.start ≤ date) (hcursor : date < s.cursor) :
    byDate s.days date = some (whole date) := by
  obtain ⟨day, hday⟩ := Option.isSome_iff_exists.1 ((h.covered date).2 ⟨hstart, hcursor⟩)
  have hdrawn := h.days date day hday
  rw [hday, hdrawn, (mem_of_byDate hday).2]

/-- The loop over the durations stops at the first one that is accepted; a duration that it does not come to is not. -/
theorem searchDurations_spec (hsource : ∀ first last days, source first last = some days → ∀ day ∈ days, Drawn whole day)
    (hstart : b.start ≤ candidate) {l : List ℕ} (hl : l.Pairwise (· < ·))
    (hlast : ∀ n ∈ l, n ≤ 366 → candidate + n ≤ b.lastDay) (h : Known (Drawn whole) b s) :
    Outcome (searchDurations source expired b candidate l s)
      (fun r => Known (Drawn whole) b r.1 ∧ match r.2 with
        | some n => n ∈ l ∧ Open (some ∘ whole) candidate (candidate + n) none ∧
          ∀ m ∈ l, m < n → ¬ Open (some ∘ whole) candidate (candidate + m) none
        | none => ∀ m ∈ l, ¬ Open (some ∘ whole) candidate (candidate + m) none)
      (Outside source expired) := by
  induction l generalizing s with
  | nil => exact Outcome.of_ok ⟨h, by simp⟩
  | cons duration l ih =>
    obtain ⟨hfirst, hrest⟩ := List.pairwise_cons.1 hl
    obtain ⟨hbound, hlast⟩ := List.forall_mem_cons.1 hlast
    -- what the loop finds among the later durations, when this one is not accepted
    have hnext : ∀ {s : Search}, Known (Drawn whole) b s → ¬ Open (some ∘ whole) candidate (candidate + duration) none →
        Outcome (searchDurations source expired b candidate l s)
          (fun r => Known (Drawn whole) b r.1 ∧ match r.2 with
            | some n => n ∈ duration :: l ∧ Open (some ∘ whole) candidate (candidate + n) none ∧
              ∀ m ∈ duration :: l, m < n → ¬ Open (some ∘ whole) candidate (candidate + m) none
            | none => ∀ m ∈ duration :: l, ¬ Open (some ∘ whole) candidate (candidate + m) none)
          (Outside source expired) := by
      intro s hs hnot
      refine (ih hrest hlast hs).mono fun r hr => ⟨hr.1, ?_⟩
      obtain ⟨s', found⟩ := r
      cases found with
      | none => exact List.forall_mem_cons.2 ⟨hnot, hr.2⟩
      | some n =>
        obtain ⟨hn, hopen, hless⟩ := hr.2
        exact ⟨List.mem_cons_of_mem _ hn, hopen, List.forall_mem_cons.2 ⟨fun _ => hnot, hless⟩⟩
    unfold searchDurations
    refine Outcome.bind (checkDeadline_spec s) ?_
    rintro _ rfl
    refine Outcome.ite (fun hrange => hnext (h.checks _) fun ho => ?_) fun hrange => ?_
    · have hcounted := ho.counted
      simp only [Option.getD_none] at hcounted
      omega
    rw [not_not] at hrange
    refine Outcome.bind (ensureCoverage_spec hsource (by omega) (hbound hrange.2) (h.checks _)) fun s' hs' => ?_
    obtain ⟨hs', hcursor⟩ := hs'
    have hbyDate : ∀ date, candidate ≤ date → date ≤ candidate + duration →
        (some ∘ whole) date = Availability.byDate s'.days date := fun date hle hle' =>
      (hs'.byDate (hstart.trans hle) (by omega)).symm
    have hcomplete : ∀ date, candidate ≤ date → date ≤ candidate + duration →
        (Availability.byDate s'.days date).isSome = true := by
      intro date hle hle'
      rw [← hbyDate date hle hle']
      rfl
    refine Outcome.pass (evaluateCalendar_ne_incomplete hcomplete) ?_
    refine Outcome.ite (fun havailable => ?_) fun hnot => ?_
    · refine Outcome.bind (checkDeadline_spec s') ?_
      rintro _ rfl
      refine Outcome.of_pure ⟨hs'.checks _, List.mem_cons_self, ?_, fun m hm hlt => ?_⟩
      · exact ((available_iff_open ..).1 havailable).congr hbyDate
      · rcases List.mem_cons.1 hm with rfl | hm
        · exact absurd hlt (lt_irrefl _)
        · exact absurd hlt (not_lt.2 (hfirst m hm).le)
    have hclosed : ¬ Open (some ∘ whole) candidate (candidate + duration) none := fun ho =>
      hnot ((available_iff_open ..).2 (ho.congr fun date hle hle' => (hbyDate date hle hle').symm))
    refine Outcome.ite (fun hends => ?_) fun _ => hnext hs' hclosed
    refine Outcome.of_pure ⟨hs', fun m hm => not_open_of_ends hends hbyDate ?_⟩
    rcases List.mem_cons.1 hm with rfl | hm
    · exact le_rfl
    · exact (hfirst m hm).le

end

/-- The durations that are asked for. -/
def Allowed (b : Bounds) (n : ℕ) : Prop :=
  match b.nights with
  | some nights => n = nights
  | none => 1 ≤ n ∧ n ≤ 366

/-- The bounds of an enquiry. -/
structure Bounds.Valid (b : Bounds) : Prop where
  lastDay : b.lastDay = b.start + 730 + b.nights.getD 366
  finish : ∀ finish, b.finish = some finish → ∃ n, b.nights = some n ∧ finish = b.start + n
  nights : ∀ n, b.nights = some n → 1 ≤ n ∧ n ≤ 366

theorem bounds_valid {e : Enquiry} {b : Bounds} (h : e.bounds = .ok b) : b.Valid := by
  simp only [Enquiry.bounds, bind_eq_ok, raiseIf_eq_ok, exists_const, pure_eq_ok] at h
  obtain ⟨hvalid, rfl⟩ := h
  simp only [not_or] at hvalid
  obtain ⟨-, -, -, hnights⟩ := hvalid
  cases hout : e.checkOut with
  | none => exact ⟨rfl, by simp, by simp⟩
  | some finish =>
    simp only [hout, Option.map_some, Option.any_some, Bool.or_eq_true, decide_eq_true_eq, not_or, not_lt] at hnights
    refine ⟨rfl, fun f hf => ⟨_, rfl, ?_⟩, fun n hn => ?_⟩
    · obtain rfl := Option.some.inj hf
      dsimp only
      omega
    · obtain rfl := Option.some.inj hn
      dsimp only
      omega

theorem range'_sorted (first count : ℕ) : (List.range' first count).Pairwise (· < ·) := List.pairwise_lt_range'

theorem mem_range'_iff (first count a : ℕ) : a ∈ List.range' first count ↔ first ≤ a ∧ a < first + count :=
  List.mem_range'_1

theorem bounds_spec {E : Refusal → Prop} (e : Enquiry) :
    Outcome e.bounds (fun b => e.bounds = .ok b) fun refusal => refusal = .invalidDates ∨ E refusal := by
  cases h : e.bounds with
  | ok b => exact rfl
  | error refusal =>
    have hspec : Outcome e.bounds (fun _ => True) (· = .invalidDates) := Outcome.guard rfl fun _ => Outcome.of_pure trivial
    exact .inl (hspec.of_eq_error h)

section
variable {whole : ℕ → CalendarDay} {source : ℕ → ℕ → Option (List CalendarDay)} {expired : ℕ → Bool} {b : Bounds}
  {s : Search} {day : CalendarDay} {candidate n : ℕ}

theorem durations_of_nights {nights : ℕ} (h : b.nights = some nights) : durations b day = [nights] := by
  unfold durations
  rw [h]
  simp

theorem mem_durations (h : b.nights = none) : n ∈ durations b day ↔
    max 1 (orElse day.minimumStay 1) ≤ n ∧ (n : ℤ) ≤ min 366 (orElse day.maximumStay 366) := by
  unfold durations
  rw [h]
  simp only [Option.map_none, Option.getD_none, List.mem_range'_1]
  have : 1 ≤ max 1 (orElse day.minimumStay 1) := le_max_left ..
  omega

theorem allowed_of_mem_durations (h : n ∈ durations b day) : Allowed b n := by
  unfold Allowed
  cases hn : b.nights with
  | some nights =>
    rw [durations_of_nights hn] at h
    exact List.mem_singleton.1 h
  | none =>
    rw [mem_durations hn] at h
    dsimp only
    omega

/-- A duration that the loop leaves out is too short or too long for the arrival. -/
theorem not_open_of_notMem (hn : Allowed b n) (h : n ∉ durations b (whole candidate)) :
    ¬ Open (some ∘ whole) candidate (candidate + n) none := by
  intro ho
  unfold Allowed at hn
  cases hb : b.nights with
  | some nights =>
    rw [hb] at hn
    rw [durations_of_nights hb, hn] at h
    exact h (List.mem_singleton_self _)
  | none =>
    rw [hb] at hn
    rw [mem_durations hb] at h
    obtain ⟨arrival, harrival, -, hmin, hmax⟩ := ho.arrival
    obtain rfl := Option.some.inj harrival
    obtain ⟨hlow, hhigh⟩ := hn
    have hless : orElse (whole candidate).minimumStay 1 ≤ n := by
      unfold orElse
      cases hm : (whole candidate).minimumStay with
      | none =>
        rw [Option.getD_none, if_pos rfl]
        omega
      | some m =>
        have := hmin m hm
        rw [Option.getD_none] at this
        rw [Option.getD_some]
        split_ifs <;> omega
    have hmore : n ≤ orElse (whole candidate).maximumStay 366 := by
      unfold orElse
      cases hm : (whole candidate).maximumStay with
      | none =>
        rw [Option.getD_none, if_pos rfl]
        omega
      | some m =>
        have := hmax m hm
        rw [Option.getD_none] at this
        rw [Option.getD_some]
        split_ifs <;> omega
    exact h ⟨max_le (by omega) hless, le_min (by omega) hmore⟩

theorem mem_durations_le (hb : b.Valid) (hcandidate : candidate ≤ b.start + 730) (h : n ∈ durations b day)
    (hn : n ≤ 366) : candidate + n ≤ b.lastDay := by
  rw [hb.lastDay]
  cases hnights : b.nights with
  | some nights =>
    rw [durations_of_nights hnights, List.mem_singleton] at h
    rw [Option.getD_some]
    omega
  | none =>
    rw [Option.getD_none]
    omega

/-- The loop over the arrivals stops at the earliest one that is accepted. -/
theorem searchArrivals_spec (hsource : ∀ first last days, source first last = some days → ∀ day ∈ days, Drawn whole day)
    (hb : b.Valid) {l : List ℕ} (hl : l.Pairwise (· < ·)) (hrange : ∀ a ∈ l, b.start ≤ a ∧ a ≤ b.start + 730)
    (h : Known (Drawn whole) b s) :
    Outcome (searchArrivals source expired b l s)
      (fun r => Known (Drawn whole) b r.1 ∧ match r.2 with
        | some (a, n) => a ∈ l ∧ Allowed b n ∧ Open (some ∘ whole) a (a + n) none ∧
          (∀ a' ∈ l, a' < a → ∀ m, Allowed b m → ¬ Open (some ∘ whole) a' (a' + m) none) ∧
          ∀ m < n, Allowed b m → ¬ Open (some ∘ whole) a (a + m) none
        | none => ∀ a ∈ l, ∀ m, Allowed b m → ¬ Open (some ∘ whole) a (a + m) none)
      (Outside source expired) := by
  induction l generalizing s with
  | nil => exact Outcome.of_ok ⟨h, by simp⟩
  | cons candidate l ih =>
    obtain ⟨hfirst, hrest⟩ := List.pairwise_cons.1 hl
    obtain ⟨⟨hstart, hhorizon⟩, hrange⟩ := List.forall_mem_cons.1 hrange
    have hnext : ∀ {s : Search}, Known (Drawn whole) b s →
        (∀ m, Allowed b m → ¬ Open (some ∘ whole) candidate (candidate + m) none) →
        Outcome (searchArrivals source expired b l s)
          (fun r => Known (Drawn whole) b r.1 ∧ match r.2 with
            | some (a, n) => a ∈ candidate :: l ∧ Allowed b n ∧ Open (some ∘ whole) a (a + n) none ∧
              (∀ a' ∈ candidate :: l, a' < a → ∀ m, Allowed b m → ¬ Open (some ∘ whole) a' (a' + m) none) ∧
              ∀ m < n, Allowed b m → ¬ Open (some ∘ whole) a (a + m) none
            | none => ∀ a ∈ candidate :: l, ∀ m, Allowed b m → ¬ Open (some ∘ whole) a (a + m) none)
          (Outside source expired) := by
      intro s hs hnot
      refine (ih hrest hrange hs).mono fun r hr => ⟨hr.1, ?_⟩
      obtain ⟨s', found⟩ := r
      cases found with
      | none => exact List.forall_mem_cons.2 ⟨hnot, hr.2⟩
      | some stay =>
        obtain ⟨ha, hn, hopen, hearlier, hshorter⟩ := hr.2
        exact ⟨List.mem_cons_of_mem _ ha, hn, hopen, List.forall_mem_cons.2 ⟨fun _ => hnot, hearlier⟩, hshorter⟩
    have hlast : candidate ≤ b.lastDay := by
      have := hb.lastDay
      omega
    unfold searchArrivals
    refine Outcome.bind (checkDeadline_spec s) ?_
    rintro _ rfl
    refine Outcome.bind (ensureCoverage_spec hsource hstart hlast (h.checks _)) fun s' hs' => ?_
    obtain ⟨hs', hcursor⟩ := hs'
    rw [hs'.byDate hstart hcursor]
    refine Outcome.ite (fun hskip => hnext hs' fun m hm ho => ?_) fun _ => ?_
    · -- a stay has its arrival as a night
      obtain ⟨arrival, harrival, hclosed, -⟩ := ho.arrival
      obtain rfl := Option.some.inj harrival
      obtain ⟨day, hday, hs⟩ := ho.nights candidate le_rfl ho.counted.1
      obtain rfl := Option.some.inj hday
      rcases hskip with hskip | hskip
      · rw [resolveDayInventory_iff.2 hs] at hskip
        cases hskip
      · exact hclosed rfl hskip
    have hsorted : (durations b (whole candidate)).Pairwise (· < ·) := List.pairwise_lt_range'
    refine Outcome.bind (searchDurations_spec hsource hstart hsorted (fun n hn => mem_durations_le hb hhorizon hn) hs')
      fun r hr => ?_
    obtain ⟨s'', duration⟩ := r
    obtain ⟨hs'', hduration⟩ := hr
    have hother : ∀ m, Allowed b m → m ∉ durations b (whole candidate) →
        ¬ Open (some ∘ whole) candidate (candidate + m) none := fun m hm hnot => not_open_of_notMem hm hnot
    cases duration with
    | none =>
      refine hnext hs'' fun m hm => ?_
      by_cases hin : m ∈ durations b (whole candidate)
      · exact hduration m hin
      · exact hother m hm hin
    | some n =>
      obtain ⟨hn, hopen, hless⟩ := hduration
      refine Outcome.of_pure ⟨hs'', List.mem_cons_self, allowed_of_mem_durations hn, hopen, fun a ha hlt => ?_,
        fun m hlt hm => ?_⟩
      · rcases List.mem_cons.1 ha with rfl | ha
        · exact absurd hlt (lt_irrefl _)
        · exact absurd hlt (not_lt.2 (hfirst a ha).le)
      · by_cases hin : m ∈ durations b (whole candidate)
        · exact hless m hin hlt
        · exact hother m hm hin

theorem coverRequested_spec (hsource : ∀ first last days, source first last = some days → ∀ day ∈ days, Drawn whole day)
    (hb : b.Valid) : Outcome (coverRequested source expired b) (Known (Drawn whole) b) (Outside source expired) := by
  unfold coverRequested
  cases hfinish : b.finish with
  | none => exact Outcome.of_ok Known.nothing
  | some finish =>
    obtain ⟨n, hn, rfl⟩ := hb.finish finish hfinish
    have hlast := hb.lastDay
    rw [hn, Option.getD_some] at hlast
    exact (ensureCoverage_spec hsource (by omega) (by omega) Known.nothing).mono fun s hs => hs.1

/-- The dates that a search can need, from the first one on. -/
def wholeCalendar (whole : ℕ → CalendarDay) (b : Bounds) : List CalendarDay :=
  (List.range' b.start (b.lastDay + 1 - b.start)).map whole

/-- The stay is accepted on the whole calendar. -/
def Accepted (whole : ℕ → CalendarDay) (b : Bounds) (candidate n : ℕ) : Prop :=
  evaluateCalendar (wholeCalendar whole b) candidate (candidate + n) none = .available

theorem accepted_iff (hwhole : ∀ date, (whole date).date = date) (hb : b.Valid) (hstart : b.start ≤ candidate)
    (hhorizon : candidate ≤ b.start + 730) (hn : Allowed b n) :
    Accepted whole b candidate n ↔ Open (some ∘ whole) candidate (candidate + n) none := by
  have hlast : candidate + n ≤ b.lastDay := by
    rw [hb.lastDay]
    unfold Allowed at hn
    cases hnights : b.nights with
    | some nights =>
      rw [hnights] at hn
      rw [Option.getD_some]
      dsimp only at hn
      omega
    | none =>
      rw [hnights] at hn
      rw [Option.getD_none]
      dsimp only at hn
      omega
  have hbyDate : ∀ date, candidate ≤ date → date ≤ candidate + n →
      Availability.byDate (wholeCalendar whole b) date = (some ∘ whole) date := by
    intro date hle hle'
    rw [wholeCalendar, byDate_map hwhole, if_pos]
    · rfl
    · rw [List.mem_range'_1]
      omega
  rw [Accepted, available_iff_open]
  exact ⟨fun h => h.congr fun date hle hle' => (hbyDate date hle hle').symm, fun h => h.congr hbyDate⟩

/-- What an answer says of the whole calendar. -/
structure Earliest (whole : ℕ → CalendarDay) (b : Bounds) (answer : Answer) : Prop where
  complete : answer.requestedReason ≠ some .calendarIncomplete
  stay : ∀ stay, answer.nextStay = some stay → stay.checkOut = stay.checkIn + stay.nights ∧ b.start ≤ stay.checkIn ∧
    stay.checkIn ≤ b.start + 730 ∧ Allowed b stay.nights ∧ Accepted whole b stay.checkIn stay.nights ∧
    (∀ a n, b.start ≤ a → a < stay.checkIn → Allowed b n → ¬ Accepted whole b a n) ∧
    ∀ n < stay.nights, Allowed b n → ¬ Accepted whole b stay.checkIn n
  verified : answer.status = .verifiedCalendar → answer.nextStay.isSome = true
  none : answer.status = .noCalendarStayInWindow →
    ∀ a n, b.start ≤ a → a ≤ b.start + 730 → Allowed b n → ¬ Accepted whole b a n

/-- A search on the windows of a calendar answers the earliest stay that the whole calendar accepts, or that there is none;
besides an enquiry that is not valid only the deadline and a window that is not served whole keep it from an answer. -/
theorem next_stay_is_earliest (whole : ℕ → CalendarDay) (hwhole : ∀ date, (whole date).date = date)
    (source : ℕ → ℕ → Option (List CalendarDay))
    (hsource : ∀ first last days, source first last = some days → ∀ day ∈ days, day = whole day.date)
    (expired : ℕ → Bool) (e : Enquiry) :
    (∀ answer, nextAvailability source expired e = .ok answer → ∃ b, e.bounds = .ok b ∧ Earliest whole b answer) ∧
    ∀ refusal, nextAvailability source expired e = .error refusal →
      refusal = .invalidDates ∨ refusal = .invalidGuests ∨ Outside source expired refusal := by
  have hspec : Outcome (nextAvailability source expired e) (fun answer => ∃ b, e.bounds = .ok b ∧ Earliest whole b answer)
      fun refusal => refusal = .invalidDates ∨ refusal = .invalidGuests ∨ Outside source expired refusal := by
    unfold nextAvailability
    refine Outcome.bind (bounds_spec e) fun b hbounds => ?_
    have hb := bounds_valid hbounds
    refine Outcome.guard (.inr (.inl rfl)) fun _ => ?_
    refine Outcome.ite (fun _ => Outcome.of_pure ⟨b, hbounds, nofun, nofun, nofun, nofun⟩) fun _ => ?_
    have hout : ∀ refusal, Outside source expired refusal →
        refusal = .invalidDates ∨ refusal = .invalidGuests ∨ Outside source expired refusal := fun _ h => .inr (.inr h)
    have hsorted := range'_sorted b.start 731
    have hrange : ∀ a ∈ List.range' b.start 731, b.start ≤ a ∧ a ≤ b.start + 730 := by
      intro a ha
      rw [mem_range'_iff] at ha
      omega
    refine ((coverRequested_spec hsource hb).bind fun s hs => ?_).weaken hout
    refine (searchArrivals_spec hsource hb hsorted hrange hs).bind fun r hr => ?_
    obtain ⟨s', stay⟩ := r
    obtain ⟨hs', hstay⟩ := hr
    cases stay with
    | none =>
      refine Outcome.of_pure ⟨b, hbounds, hs'.reason, nofun, nofun, fun _ a n hle hle' hn => ?_⟩
      rw [accepted_iff hwhole hb hle hle' hn]
      exact hstay a ((mem_range'_iff ..).2 ⟨hle, by omega⟩) n hn
    | some stay =>
      obtain ⟨a, n⟩ := stay
      obtain ⟨ha, hn, hopen, hearlier, hshorter⟩ := hstay
      obtain ⟨hle, hle'⟩ := hrange a ha
      refine Outcome.of_pure ⟨b, hbounds, hs'.reason, fun stay hstay => ?_, fun _ => rfl, nofun⟩
      obtain rfl := Option.some.inj hstay
      refine ⟨rfl, hle, hle', hn, (accepted_iff hwhole hb hle hle' hn).2 hopen, fun a' n' hle'' hlt hn' => ?_,
        fun n' hlt hn' => ?_⟩
      · dsimp only at hlt
        rw [accepted_iff hwhole hb hle'' (by omega) hn']
        exact hearlier a' ((mem_range'_iff ..).2 ⟨hle'', by omega⟩) hlt n' hn'
      · rw [accepted_iff hwhole hb hle hle' hn']
        exact hshorter n' hlt hn'
  exact ⟨fun answer h => hspec.of_eq_ok h, fun refusal h => hspec.of_eq_error h⟩

end

/-- The windows of a calendar on which every day is free. -/
def freeWindow (first last : ℕ) : Option (List CalendarDay) :=
  some ((List.range' first (last + 1 - first)).map freeDay)

theorem next_stay_is_earliest_free :
    ∃ answer b, nextAvailability freeWindow (fun _ => false) ⟨10, none, none, none, none⟩ = .ok answer ∧
      answer.nextStay = some ⟨10, 11, 1⟩ ∧ Enquiry.bounds ⟨10, none, none, none, none⟩ = .ok b ∧
      Earliest freeDay b answer := by
  have hanswer : nextAvailability freeWindow (fun _ => false) ⟨10, none, none, none, none⟩ =
      .ok ⟨.verifiedCalendar, none, some ⟨10, 11, 1⟩, some 10⟩ := by decide +kernel
  have hdrawn : ∀ first last days, freeWindow first last = some days → ∀ day ∈ days, day = freeDay day.date := by
    intro first last days hdays day hday
    obtain rfl := Option.some.inj hdays
    obtain ⟨date, -, rfl⟩ := List.mem_map.1 hday
    rfl
  obtain ⟨b, hb, hearliest⟩ := (next_stay_is_earliest freeDay (fun _ => rfl) freeWindow hdrawn (fun _ => false)
    ⟨10, none, none, none, none⟩).1 _ hanswer
  exact ⟨_, b, hanswer, rfl, hb, hearliest⟩

end Apartments.Availability
