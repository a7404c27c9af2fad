import Apartments.Hostaway.Responses
import Apartments.Lib.Traverse
import Apartments.Reservations.EarliestStay

/-!
# What is accepted of the channel

A calendar is accepted when each of its rows can be read and no two have the same date, so every row counts and their order
does not. A price is accepted for the listing that its currency was looked up for; an override changes the currency alone.
-/

namespace Apartments.Responses

open Webhooks (Json)

/-! ### Values without their names -/

section
variable {lib : Library} {value item : Json} {name : String} {i j date : ℕ} {seen : List ℕ} {items : List Json}
  {day : CalendarDay} {days days' : List CalendarDay} {component : PriceComponent} {components : List PriceComponent}

/-- The date that `_date` finds in a value. -/
def dateOf (lib : Library) : Json → Option ℕ
  | .str text => lib.fromIsoFormat text
  | _ => none

theorem toOption_readDate : (readDate lib value name).toOption = dateOf lib value := by
  cases value with
  | str text => exact toOption_found
  | _ => rfl

theorem toOption_optionalBool :
    (optionalBool value name).toOption = if value.isBlank then some none else (flagOf value).map some := by
  unfold optionalBool
  split
  · rfl
  · rw [toOption_bind, toOption_found, Option.map_eq_bind]
    rfl

theorem toOption_optionalInt {least : ℤ} {text : String} : (optionalInt least text value name).toOption =
    if value.isBlank then some none else ((wholeOf value).filter (least ≤ ·)).map some := by
  unfold optionalInt readInteger
  split
  · rfl
  · rw [toOption_bind, toOption_found]
    cases wholeOf value with
    | none => rfl
    | some n =>
      rw [Option.bind_some, toOption_bind, toOption_raiseIf]
      by_cases hn : n < least
      · simp [hn]
      · simp [hn, not_lt.1 hn, pure, Except.pure, Except.toOption]

theorem toOption_optionalDecimal :
    (optionalDecimal value name).toOption = if value.isBlank then some none else (amountOf value).map some := by
  unfold optionalDecimal
  split
  · rfl
  · rw [toOption_bind, toOption_found, Option.map_eq_bind]
    rfl

theorem optionalInt_spec {least : ℤ} {text : String} :
    Outcome (optionalInt least text value name) (fun r => ∀ n ∈ r, least ≤ n) fun _ => True := by
  unfold optionalInt
  refine Outcome.ite (fun _ => Outcome.of_ok (by rintro n ⟨⟩)) fun _ => Outcome.bind (Outcome.any _) fun n _ => ?_
  refine Outcome.guard trivial fun hn => Outcome.of_pure ?_
  rintro _ ⟨⟩
  exact not_lt.1 hn

/-! ### Rows -/

/-- The rules of a stay are positive and the counts are not negative. -/
structure CalendarDay.Sane (day : CalendarDay) : Prop where
  minimumStay : ∀ n ∈ day.minimumStay, 1 ≤ n
  maximumStay : ∀ n ∈ day.maximumStay, 1 ≤ n
  counts : ∀ count ∈ [day.countAvailableUnits, day.availableUnitsToSell, day.countReservedUnits, day.countPendingUnits,
    day.countBlockedUnits, day.countBlockingReservations, day.desiredUnitsToSell], ∀ n ∈ count, 0 ≤ n

/-- The day of a row that can be read. -/
def dayOf (lib : Library) (item : Json) : Option CalendarDay := (readDay lib 0 [] item).toOption

theorem toOption_readFields : (readFields i item date).toOption = (readFields j item date).toOption := by
  have hflag : ∀ {value name name'}, (optionalBool value name).toOption = (optionalBool value name').toOption := by
    simp only [toOption_optionalBool, implies_true]
  have hint : ∀ {least text value name name'},
      (optionalInt least text value name).toOption = (optionalInt least text value name').toOption := by
    simp only [toOption_optionalInt, implies_true]
  have hprice : ∀ {value name name'}, (optionalDecimal value name).toOption = (optionalDecimal value name').toOption := by
    simp only [toOption_optionalDecimal, implies_true]
  unfold readFields optionalPositiveInt optionalNonnegativeInt
  dsimp only
  refine toOption_bind_congr hflag fun _ => toOption_bind_congr hprice fun _ => ?_
  refine toOption_bind_congr hint fun _ => toOption_bind_congr hint fun _ => ?_
  refine toOption_bind_congr hflag fun _ => toOption_bind_congr hflag fun _ => ?_
  refine toOption_bind_congr hint fun _ => toOption_bind_congr hint fun _ => ?_
  refine toOption_bind_congr hint fun _ => toOption_bind_congr hint fun _ => ?_
  refine toOption_bind_congr hint fun _ => toOption_bind_congr hint fun _ => ?_
  exact toOption_bind_congr hint fun _ => toOption_bind_congr hflag fun _ => rfl

theorem readFields_spec : Outcome (readFields i item date) (fun day => day.date = date ∧ day.Sane) fun _ => True := by
  unfold readFields optionalPositiveInt optionalNonnegativeInt
  dsimp only
  refine Outcome.bind (Outcome.any _) fun _ _ => Outcome.bind (Outcome.any _) fun _ _ => ?_
  refine Outcome.bind optionalInt_spec fun _ hmin => Outcome.bind optionalInt_spec fun _ hmax => ?_
  refine Outcome.bind (Outcome.any _) fun _ _ => Outcome.bind (Outcome.any _) fun _ _ => ?_
  refine Outcome.bind optionalInt_spec fun _ h₁ => Outcome.bind optionalInt_spec fun _ h₂ => ?_
  refine Outcome.bind optionalInt_spec fun _ h₃ => Outcome.bind optionalInt_spec fun _ h₄ => ?_
  refine Outcome.bind optionalInt_spec fun _ h₅ => Outcome.bind optionalInt_spec fun _ h₆ => ?_
  refine Outcome.bind optionalInt_spec fun _ h₇ => Outcome.bind (Outcome.any _) fun _ _ => ?_
  refine Outcome.of_pure ⟨rfl, hmin, hmax, ?_⟩
  simp only [List.forall_mem_cons]
  exact ⟨h₁, h₂, h₃, h₄, h₅, h₆, h₇, fun _ hmem => absurd hmem List.not_mem_nil⟩

/-- Neither the place of a row nor the rows before it matter, but for their dates. -/
theorem toOption_readDay : (readDay lib i seen item).toOption = (dayOf lib item).filter (·.date ∉ seen) := by
  have hfields : ∀ date, (readFields i item date).toOption = (readFields 0 item date).toOption := fun _ =>
    toOption_readFields
  rw [dayOf, readDay, readDay]
  simp only [toOption_bind, toOption_raiseIf, toOption_readDate, hfields, List.not_mem_nil, if_false, Option.bind_some]
  by_cases hobject : item.isObject = false
  · rw [if_pos hobject]
    rfl
  rw [if_neg hobject, Option.bind_some, Option.bind_some]
  cases dateOf lib (field item "date") with
  | none => rfl
  | some date =>
    rw [Option.bind_some, Option.bind_some]
    cases hread : (readFields 0 item date).toOption with
    | none => split <;> rfl
    | some day =>
      have hdate : day.date = date := (readFields_spec.of_eq_ok (toOption_eq_some.1 hread)).1
      by_cases hseen : date ∈ seen
      · simp [Option.filter, hseen, hdate]
      · simp [Option.filter, hseen, hdate]

theorem readDay_eq_ok : readDay lib i seen item = .ok day ↔ dayOf lib item = some day ∧ day.date ∉ seen := by
  rw [← toOption_eq_some, toOption_readDay, Option.filter_eq_some_iff, decide_eq_true_iff]

theorem readDay_spec : Outcome (readDay lib i seen item) CalendarDay.Sane fun _ => True := by
  unfold readDay
  refine Outcome.guard trivial fun _ => Outcome.bind (Outcome.any _) fun date _ => Outcome.guard trivial fun _ => ?_
  exact Outcome.mono readFields_spec fun _ h => And.right h

theorem dayOf_sane (h : dayOf lib item = some day) : day.Sane := by
  have hread : readDay lib 0 [] item = .ok day := toOption_eq_some.1 h
  exact readDay_spec.of_eq_ok hread

/-- The days of some rows: every row can be read, and no date comes twice. -/
structure DaysOf (lib : Library) (items : List Json) (days : List CalendarDay) : Prop where
  read : List.Forall₂ (fun item day => dayOf lib item = some day) items days
  nodup : (days.map (·.date)).Nodup

theorem readDays_eq_ok : readDays lib i seen items = .ok days ↔ DaysOf lib items days ∧ ∀ day ∈ days, day.date ∉ seen := by
  induction items generalizing i seen days with
  | nil =>
    constructor
    · rintro ⟨⟩
      exact ⟨⟨.nil, List.nodup_nil⟩, fun _ hmem => absurd hmem List.not_mem_nil⟩
    · rintro ⟨⟨⟨⟩, -⟩, -⟩
      rfl
  | cons item items ih =>
    rw [readDays]
    simp only [bind_eq_ok, pure_eq_ok, readDay_eq_ok, ih]
    constructor
    · rintro ⟨day, ⟨hday, hseen⟩, rest, ⟨hrest, hnew⟩, rfl⟩
      refine ⟨⟨.cons hday hrest.read, ?_⟩, ?_⟩
      · rw [List.map_cons, List.nodup_cons]
        refine ⟨fun hmem => ?_, hrest.nodup⟩
        obtain ⟨other, hother, heq⟩ := List.mem_map.1 hmem
        exact hnew other hother (heq ▸ List.mem_cons_self)
      · rw [List.forall_mem_cons]
        exact ⟨hseen, fun d hd hmem => hnew d hd (List.mem_cons_of_mem _ hmem)⟩
    · rintro ⟨⟨hread, hnodup⟩, hseen⟩
      obtain ⟨day, rest, hday, hrest, rfl⟩ := List.forall₂_cons_left_iff.1 hread
      rw [List.map_cons, List.nodup_cons] at hnodup
      rw [List.forall_mem_cons] at hseen
      refine ⟨day, ⟨hday, hseen.1⟩, rest, ⟨⟨hrest, hnodup.2⟩, fun d hd hmem => ?_⟩, rfl⟩
      rcases List.mem_cons.1 hmem with heq | hmem
      · exact hnodup.1 (heq ▸ List.mem_map_of_mem hd)
      · exact hseen.2 d hd hmem

theorem readDays_cons_of_ok (h : readDay lib i seen item = .ok day) : readDays lib i seen (item :: items) =
    (readDays lib (i + 1) (day.date :: seen) items).map (day :: ·) := by
  rw [readDays, h]
  show (readDays lib (i + 1) (day.date :: seen) items >>= fun rest => pure (day :: rest)) = _
  cases readDays lib (i + 1) (day.date :: seen) items <;> rfl

theorem readDays_cons_of_error {e : Refusal} (h : readDay lib i seen item = .error e) :
    readDays lib i seen (item :: items) = .error e := by
  rw [readDays, h]
  rfl

/-- What is seen once the rows of `days`, after the first, are read. -/
theorem seen_cons : (days.map (·.date)).reverse ++ day.date :: seen = ((day :: days).map (·.date)).reverse ++ seen := by
  rw [List.map_cons, List.reverse_cons, List.append_assoc, List.singleton_append]

/-- A loop over the rows ends at the first that cannot be read, or that has the date of a row before it. -/
theorem readDays_eq_error {e : Refusal} : readDays lib i seen items = .error e ↔
    ∃ before item after days, items = before ++ item :: after ∧ readDays lib i seen before = .ok days ∧
      readDay lib (i + before.length) ((days.map (·.date)).reverse ++ seen) item = .error e := by
  constructor
  · intro h
    induction items generalizing i seen with
    | nil => cases h
    | cons row rows ih =>
      cases hrow : readDay lib i seen row with
      | error e' =>
        rw [readDays_cons_of_error hrow] at h
        exact ⟨[], row, rows, [], rfl, rfl, hrow.trans (congrArg Except.error (Except.error.inj h))⟩
      | ok day =>
        rw [readDays_cons_of_ok hrow] at h
        have hrest : readDays lib (i + 1) (day.date :: seen) rows = .error e := by
          cases hrest : readDays lib (i + 1) (day.date :: seen) rows <;> rw [hrest] at h <;> cases h
          rfl
        obtain ⟨before, item, after, days, rfl, hbefore, hitem⟩ := ih hrest
        refine ⟨row :: before, item, after, day :: days, rfl, ?_, ?_⟩
        · rw [readDays_cons_of_ok hrow, hbefore]
          rfl
        · rw [← hitem, List.length_cons, ← seen_cons, Nat.add_right_comm, Nat.add_assoc]
  · rintro ⟨before, item, after, days, rfl, hbefore, hitem⟩
    induction before generalizing i seen days with
    | nil =>
      cases hbefore
      exact readDays_cons_of_error hitem
    | cons row before ih =>
      rw [readDays] at hbefore
      obtain ⟨day, hday, hbefore⟩ := bind_eq_ok.1 hbefore
      obtain ⟨days', hdays', hbefore⟩ := bind_eq_ok.1 hbefore
      cases hbefore
      rw [List.length_cons, ← seen_cons, ← Nat.add_assoc, Nat.add_right_comm] at hitem
      rw [List.cons_append, readDays_cons_of_ok hday, ih _ hdays' hitem]
      rfl

end

/-! ### Calendars -/

section
variable {l l' : List Availability.CalendarDay} {date : ℕ} {rules : Availability.CalendarDay}

/-- No row of a calendar shadows another. -/
theorem byDate_eq_some (h : (l.map (·.date)).Nodup) :
    Availability.byDate l date = some rules ↔ rules ∈ l ∧ rules.date = date := by
  refine ⟨Availability.mem_of_byDate, ?_⟩
  rintro ⟨hmem, hdate⟩
  have hlisted : date ∈ l.map (·.date) := List.mem_map.2 ⟨rules, hmem, hdate⟩
  obtain ⟨other, hother⟩ := Option.isSome_iff_exists.1 (Availability.byDate_isSome.2 hlisted)
  obtain ⟨hmem', hdate'⟩ := Availability.mem_of_byDate hother
  rw [hother, List.inj_on_of_nodup_map h hmem' hmem (hdate'.trans hdate.symm)]

theorem evaluateCalendar_of_perm (h : l.Perm l') (hnodup : (l.map (·.date)).Nodup) (checkIn checkOut : ℕ)
    (existingCheckIn : Option ℕ) : Availability.evaluateCalendar l checkIn checkOut existingCheckIn =
      Availability.evaluateCalendar l' checkIn checkOut existingCheckIn := by
  have hbyDate : Availability.byDate l = Availability.byDate l' := by
    funext date
    refine Option.ext fun rules => ?_
    rw [byDate_eq_some hnodup, byDate_eq_some ((h.map _).nodup_iff.1 hnodup), h.mem_iff]
  unfold Availability.evaluateCalendar
  rw [hbyDate]

end

section
variable {lib : Library} {payload : Json} {items items' : List Json} {days : List CalendarDay}

/-- The document reports no failure, and these rows. -/
structure Lists (payload : Json) (items : List Json) : Prop where
  isObject : payload.isObject = true
  succeeded : succeeded payload = true
  result : field payload "result" = .arr items

theorem Lists.validate (h : Lists payload items) : validateCalendarResponse lib payload = readDays lib 0 [] items := by
  unfold validateCalendarResponse
  rw [raiseIf_of_not (by simp [h.isObject, h.succeeded]), h.result]
  rfl

theorem readDays_iff : readDays lib 0 [] items = .ok days ↔ DaysOf lib items days :=
  readDays_eq_ok.trans (and_iff_left fun _ _ => List.not_mem_nil)

theorem DaysOf.of_perm (h : DaysOf lib items days) (hperm : items'.Perm items) :
    ∃ days', DaysOf lib items' days' ∧ days'.Perm days := by
  obtain ⟨days', hread, hdays⟩ := List.perm_comp_forall₂ hperm h.read
  exact ⟨days', ⟨hread, (hdays.map _).nodup_iff.2 h.nodup⟩, hdays⟩

theorem DaysOf.sane (h : DaysOf lib items days) : ∀ day ∈ days, day.Sane := by
  obtain ⟨hread, -⟩ := h
  induction hread with
  | nil => exact fun _ hday => absurd hday List.not_mem_nil
  | cons hitem _ ih => exact List.forall_mem_cons.2 ⟨dayOf_sane hitem, ih⟩

theorem DaysOf.rules_nodup (h : DaysOf lib items days) : ((days.map CalendarDay.rules).map (·.date)).Nodup := by
  rw [List.map_map]
  exact h.nodup

/-- A calendar is accepted when each row can be read and no date comes twice, and is refused by the first row of which that
is not so. Every row that is accepted counts for the stays, and their order does not. -/
theorem calendars_are_read (h : Lists payload items) :
    (∀ days, validateCalendarResponse lib payload = .ok days ↔ DaysOf lib items days) ∧
    (∀ e, validateCalendarResponse lib payload = .error e ↔ ∃ before item after days, items = before ++ item :: after ∧
      DaysOf lib before days ∧ readDay lib before.length (days.map (·.date)).reverse item = .error e) ∧
    ∀ days, DaysOf lib items days →
      (∀ day ∈ days, day.Sane ∧ Availability.byDate (days.map (·.rules)) day.date = some day.rules) ∧
      ∀ other items', Lists other items' → items'.Perm items → ∃ days', validateCalendarResponse lib other = .ok days' ∧
        ∀ checkIn checkOut existingCheckIn,
          Availability.evaluateCalendar (days'.map (·.rules)) checkIn checkOut existingCheckIn =
            Availability.evaluateCalendar (days.map (·.rules)) checkIn checkOut existingCheckIn := by
  rw [h.validate]
  refine ⟨fun days => readDays_iff, fun e => ?_, fun days hdays => ⟨fun day hday => ⟨hdays.sane day hday, ?_⟩, ?_⟩⟩
  · simp only [readDays_eq_error, readDays_iff, List.append_nil, Nat.zero_add]
  · exact (byDate_eq_some hdays.rules_nodup).2 ⟨List.mem_map_of_mem hday, rfl⟩
  · intro other items' hother hperm
    obtain ⟨days', hdays', hperm'⟩ := hdays.of_perm hperm
    refine ⟨days', hother.validate.trans (readDays_iff.2 hdays'), ?_⟩
    exact evaluateCalendar_of_perm (hperm'.map _) hdays'.rules_nodup

/-- Two days, the later one first. -/
def twoRows : List Json :=
  [.obj [("date", .str "2026-01-02"), ("isAvailable", .int 1)], .obj [("date", .str "2026-01-01"), ("minimumStay", .str "2")]]

def calendarBody (items : List Json) : Json := .obj [("status", .str "success"), ("result", .arr items)]

def januaryLibrary : Library where
  fromIsoFormat := fun text => if text = "2026-01-01" then some 1 else if text = "2026-01-02" then some 2 else none
  supportedCurrencies := ["SAR", "USD"]

def unread (date : ℕ) : CalendarDay where
  date := date
  isAvailable := none
  price := none
  minimumStay := none
  maximumStay := none
  closedOnArrival := none
  closedOnDeparture := none
  countAvailableUnits := none
  availableUnitsToSell := none
  countReservedUnits := none
  countPendingUnits := none
  countBlockedUnits := none
  countBlockingReservations := none
  desiredUnitsToSell := none
  isProcessed := none
  status := ""

theorem calendars_are_read_reversed : ∃ days,
    validateCalendarResponse januaryLibrary (calendarBody twoRows.reverse) = .ok days ∧
      ∀ checkIn checkOut existingCheckIn,
        Availability.evaluateCalendar (days.map (·.rules)) checkIn checkOut existingCheckIn =
          Availability.evaluateCalendar ([{ unread 2 with isAvailable := some true },
            { unread 1 with minimumStay := some 2 }].map (·.rules)) checkIn checkOut existingCheckIn := by
  have hlists : Lists (calendarBody twoRows) twoRows := ⟨rfl, rfl, rfl⟩
  have hread := @calendars_are_read januaryLibrary _ _ hlists
  refine (hread.2.2 _ ((hread.1 _).1 ?_)).2 _ _ ⟨rfl, rfl, rfl⟩ twoRows.reverse_perm
  decide +kernel

end

/-! ### Prices -/

section
variable {lib : Library} {stay : Stay} {payload response value : Json} {item : Json} {items : List Json} {i : ℕ}
  {listingId : ℤ} {name source override override' price listing code : String} {quote : PriceQuote} {now : Time}

/-- A component says what it is for, what it adds up to and whether it counts, and no number of it is negative. -/
structure PriceComponent.Sane (component : PriceComponent) : Prop where
  type : component.type ≠ ""
  name : component.name ≠ ""
  total : component.total.isSome = true
  isIncludedInTotal : component.isIncludedInTotal.isSome = true
  isDeleted : component.isDeleted.isSome = true
  listingFeeSettingId : ∀ n ∈ component.listingFeeSettingId, 0 ≤ n
  quantity : ∀ n ∈ component.quantity, 0 ≤ n

theorem requiredString_spec : Outcome (requiredString value name) (· ≠ "") fun _ => True := by
  unfold requiredString
  exact Outcome.guard trivial fun h => Outcome.of_pure h

theorem readComponent_spec : Outcome (readComponent i item) PriceComponent.Sane fun _ => True := by
  unfold readComponent optionalNonnegativeInt
  dsimp only
  refine Outcome.guard trivial fun _ => Outcome.bind optionalInt_spec fun _ hid => ?_
  refine Outcome.bind requiredString_spec fun _ htype => Outcome.bind requiredString_spec fun _ hname => ?_
  refine Outcome.bind optionalInt_spec fun _ hquantity => Outcome.bind (Outcome.any _) fun _ _ => ?_
  refine Outcome.bind (Outcome.any _) fun _ _ => Outcome.bind (Outcome.any _) fun _ _ => ?_
  refine Outcome.bind (Outcome.any _) fun _ _ => Outcome.bind (Outcome.any _) fun _ _ => ?_
  exact Outcome.bind (Outcome.any _) fun _ _ => Outcome.of_pure ⟨htype, hname, rfl, rfl, rfl, hid, hquantity⟩

theorem readComponents_spec : Outcome (readComponents i items) (fun components => ∀ c ∈ components, c.Sane) fun _ => True := by
  induction items generalizing i with
  | nil => exact Outcome.of_ok fun _ hc => absurd hc List.not_mem_nil
  | cons item items ih =>
    unfold readComponents
    refine Outcome.bind readComponent_spec fun component hcomponent => Outcome.bind ih fun components hcomponents => ?_
    exact Outcome.of_pure (List.forall_mem_cons.2 ⟨hcomponent, hcomponents⟩)

theorem priceComponents_spec : Outcome (priceComponents value) (fun components => ∀ c ∈ components, c.Sane) fun _ => True := by
  cases value with
  | arr items => exact readComponents_spec
  | _ => trivial

theorem supportedCurrency_spec :
    Outcome (supportedCurrency lib value source) (fun code => code ≠ "" → code ∈ lib.supportedCurrencies) fun _ => True := by
  unfold supportedCurrency
  refine Outcome.bind (Outcome.any _) fun code _ => Outcome.guard trivial fun h => Outcome.of_pure fun hcode => ?_
  by_contra hnot
  exact h ⟨hcode, hnot⟩

theorem listingCurrency_spec : Outcome (listingCurrency lib listingId response)
    (fun code => code ≠ "" → code ∈ lib.supportedCurrencies) fun _ => True := by
  unfold listingCurrency
  refine Outcome.guard trivial fun _ => Outcome.bind (Outcome.any _) fun id _ => Outcome.guard trivial fun _ => ?_
  exact supportedCurrency_spec

/-- The currencies that Hostaway names for the price and for its listing, which do not conflict. -/
structure Named (lib : Library) (listingId : ℤ) (payload response : Json) (ofPrice ofListing : String) : Prop where
  positive : ¬ listingId ≤ 0
  body : ¬ payload.isObject = false
  result : ¬ (field payload "result").isObject = false
  price : supportedCurrency lib (orElse (field (field payload "result") "currency")
    (field (field payload "result") "currencyCode")) "priceDetails" = .ok ofPrice
  listing : listingCurrency lib listingId response = .ok ofListing
  agree : ¬ (ofPrice ≠ "" ∧ ofListing ≠ "" ∧ ofPrice ≠ ofListing)

def noCurrency : Refusal := .response "Hostaway price response does not identify a currency."

/-- The currency of what Hostaway names under an override. -/
def preferred (override price listing : String) : Except Refusal String :=
  if override ≠ "" then .ok override
  else if price ≠ "" then .ok price
  else if listing = "" then .error noCurrency
  else .ok listing

theorem Named.resolve (h : Named lib listingId payload response price listing)
    (hoverride : supportedCurrency lib (.str override) "local override" = .ok code) :
    resolveCurrency lib listingId payload (some response) override = preferred code price listing := by
  unfold resolveCurrency
  dsimp only [Option.elim]
  rw [raiseIf_of_not h.positive, raiseIf_of_not h.body, raiseIf_of_not h.result, h.price, hoverride, h.listing]
  show (raiseIf _ _ >>= fun _ => _) = _
  rw [raiseIf_of_not h.agree]
  unfold preferred
  show (if code ≠ "" then Except.ok code else if price ≠ "" then Except.ok price else
    raiseIf (listing = "") noCurrency >>= fun _ => Except.ok listing) = _
  split_ifs with hcode hprice hlisting
  · rfl
  · rfl
  · rw [raiseIf_of hlisting]
    rfl
  · rw [raiseIf_of_not hlisting]
    rfl

theorem exists_named (h : resolveCurrency lib listingId payload (some response) override = .ok code) :
    ∃ price listing code', Named lib listingId payload response price listing ∧
      supportedCurrency lib (.str override) "local override" = .ok code' ∧ preferred code' price listing = .ok code := by
  have hresolved := h
  unfold resolveCurrency at h
  dsimp only [Option.elim] at h
  obtain ⟨⟨⟩, hpositive, h⟩ := bind_eq_ok.1 h
  obtain ⟨⟨⟩, hbody, h⟩ := bind_eq_ok.1 h
  obtain ⟨⟨⟩, hresult, h⟩ := bind_eq_ok.1 h
  obtain ⟨price, hprice, h⟩ := bind_eq_ok.1 h
  obtain ⟨code', hcode', h⟩ := bind_eq_ok.1 h
  obtain ⟨listing, hlisting, h⟩ := bind_eq_ok.1 h
  obtain ⟨⟨⟩, hagree, h⟩ := bind_eq_ok.1 h
  have hnamed : Named lib listingId payload response price listing :=
    ⟨raiseIf_eq_ok.1 hpositive, raiseIf_eq_ok.1 hbody, raiseIf_eq_ok.1 hresult, hprice, hlisting, raiseIf_eq_ok.1 hagree⟩
  exact ⟨price, listing, code', hnamed, hcode', (hnamed.resolve hcode').symm.trans hresolved⟩

/-- But for its currency, a quote does not depend on the override. -/
theorem validatePriceResponse_override
    (h : validatePriceResponse lib stay payload (some response) override now = .ok quote) :
    0 ≤ quote.totalPrice.value ∧ (∀ c ∈ quote.components, c.Sane) ∧
    resolveCurrency lib stay.listingId payload (some response) override = .ok quote.currency ∧
    ∀ override', validatePriceResponse lib stay payload (some response) override' now =
      (resolveCurrency lib stay.listingId payload (some response) override').map fun code => { quote with currency := code } := by
  unfold validatePriceResponse at h
  obtain ⟨⟨⟩, hobject, h⟩ := bind_eq_ok.1 h
  obtain ⟨⟨⟩, hsucceeded, h⟩ := bind_eq_ok.1 h
  obtain ⟨⟨⟩, hresult, h⟩ := bind_eq_ok.1 h
  obtain ⟨total, htotal, h⟩ := bind_eq_ok.1 h
  obtain ⟨⟨⟩, hnegative, h⟩ := bind_eq_ok.1 h
  obtain ⟨components, hcomponents, h⟩ := bind_eq_ok.1 h
  obtain ⟨code, hcode, h⟩ := bind_eq_ok.1 h
  cases h
  refine ⟨not_lt.1 (raiseIf_eq_ok.1 hnegative), ?_, hcode, fun override' => ?_⟩
  · exact priceComponents_spec.of_eq_ok hcomponents
  · unfold validatePriceResponse
    rw [hobject, hsucceeded]
    show (raiseIf _ _ >>= fun _ => _) = _
    rw [hresult]
    show (requiredDecimal _ _ >>= fun total => _) = _
    rw [htotal]
    show (raiseIf _ _ >>= fun _ => priceComponents _ >>= fun components => _) = _
    rw [hnegative, hcomponents]
    show (resolveCurrency _ _ _ _ _ >>= fun code => _) = _
    cases resolveCurrency lib stay.listingId payload (some response) override' <;> rfl

theorem supportedCurrency_blank : supportedCurrency lib (.str "") source = .ok "" := by
  have hblank : readCurrency (.str "") = .ok "" := by decide
  rw [supportedCurrency, hblank]
  rfl

theorem Named.listingId_eq (h : Named lib listingId payload response price listing) :
    readListingId (field (listingRecord response) "id") = .ok listingId := by
  obtain ⟨⟨⟩, -, hlisting⟩ := bind_eq_ok.1 h.listing
  obtain ⟨id, hid, hlisting⟩ := bind_eq_ok.1 hlisting
  obtain ⟨⟨⟩, hbound, -⟩ := bind_eq_ok.1 hlisting
  rw [hid, not_not.1 (raiseIf_eq_ok.1 hbound)]

theorem preferred_of_ne (h : override ≠ "") : preferred override price listing = .ok override := if_pos h

theorem preferred_supported (h : preferred override price listing = .ok code)
    (hoverride : override ≠ "" → override ∈ lib.supportedCurrencies) (hprice : price ≠ "" → price ∈ lib.supportedCurrencies)
    (hlisting : listing ≠ "" → listing ∈ lib.supportedCurrencies) : code ≠ "" ∧ code ∈ lib.supportedCurrencies := by
  unfold preferred at h
  split_ifs at h with hnone hsecond hthird
  · cases h
    exact ⟨hnone, hoverride hnone⟩
  · cases h
    exact ⟨hsecond, hprice hsecond⟩
  · cases h
    exact ⟨hthird, hlisting hthird⟩

/-- A price that is accepted is complete, is bound to its listing and has a supported currency. Another override gives the
same price under its own label; without one it has the label that Hostaway gives it, or is refused for having none. -/
theorem override_relabels_alone {cached : Option Json} {record : Json}
    (h : calculatePrice lib stay payload cached record override now = .ok quote) :
    (0 ≤ quote.totalPrice.value ∧ ∀ c ∈ quote.components, c.Sane) ∧
    (quote.currency ≠ "" ∧ quote.currency ∈ lib.supportedCurrencies) ∧
    readListingId (field (listingRecord (currencyRecord cached record)) "id") = .ok stay.listingId ∧
    (∀ override' code, supportedCurrency lib (.str override') "local override" = .ok code → code ≠ "" →
      calculatePrice lib stay payload cached record override' now = .ok { quote with currency := code }) ∧
    (calculatePrice lib stay payload cached record "" now = .error noCurrency ∨
      ∃ own, calculatePrice lib stay payload cached record "" now = .ok { quote with currency := own }) := by
  unfold calculatePrice at h ⊢
  obtain ⟨htotal, hcomponents, hcode, hrelabel⟩ := validatePriceResponse_override h
  obtain ⟨price, listing, code, hnamed, hoverride, hpreferred⟩ := exists_named hcode
  refine ⟨⟨htotal, hcomponents⟩, ?_, hnamed.listingId_eq, fun override' code' hcode' hne => ?_, ?_⟩
  · exact preferred_supported hpreferred (supportedCurrency_spec.of_eq_ok hoverride)
      (supportedCurrency_spec.of_eq_ok hnamed.price) (listingCurrency_spec.of_eq_ok hnamed.listing)
  · rw [hrelabel, hnamed.resolve hcode', preferred_of_ne hne]
    rfl
  · rw [hrelabel, hnamed.resolve supportedCurrency_blank]
    cases hown : preferred "" price listing with
    | ok own => exact .inr ⟨own, rfl⟩
    | error e =>
      unfold preferred at hown
      split_ifs at hown
      cases hown
      exact .inl rfl

def twoNights : Stay where
  listingId := 7
  checkIn := 1
  checkOut := 3
  guests := 2

/-- A price in riyals, of a rate for both nights. -/
def priceBody : Json := .obj [("status", .str "success"), ("result", .obj [("totalPrice", .int 90), ("currency", .str "sar"),
  ("components", .arr [.obj [("type", .str "accommodation"), ("name", .str "baseRate"), ("value", .int 90),
    ("total", .int 90), ("isIncludedInTotalPrice", .int 1), ("isDeleted", .int 0)]])])]

def sevenListing : Json := .obj [("id", .int 7), ("currencyCode", .str "SAR")]

def ninety : Decimal where
  negative := false
  coefficient := 90
  exponent := 0

def dollarQuote : PriceQuote where
  listingId := 7
  checkIn := 1
  checkOut := 3
  nights := 2
  guests := 2
  currency := "USD"
  totalPrice := ninety
  components := [{
    listingFeeSettingId := none
    type := "accommodation"
    name := "baseRate"
    title := ""
    aliasName := ""
    quantity := none
    value := ninety
    total := some ninety
    isIncludedInTotal := some true
    isOverriddenByUser := none
    isMandatory := none
    isDeleted := some false }]
  calculatedAt := 5

theorem override_relabels_alone_riyals : calculatePrice januaryLibrary twoNights priceBody none sevenListing "sar" 5 =
    .ok { dollarQuote with currency := "SAR" } := by
  have hdollars : calculatePrice januaryLibrary twoNights priceBody none sevenListing "USD" 5 = .ok dollarQuote := by
    decide +kernel
  exact (override_relabels_alone hdollars).2.2.2.1 "sar" "SAR" (by decide +kernel) (by decide)

end

end Apartments.Responses
