import Apartments.Hostaway.Answers
import Apartments.Hostaway.FinanceFields
import Apartments.Loyalty.SiteAdapter
import Apartments.Mornings.Overnights
import Apartments.Reservations.Availability

/-!
# The nights a stay occupies already (`reservations/services/modifications.py`)

A pure extension asks the calendar for the added nights only. Every other change, and its revalidation, goes through the
check of a new stay, which counts the nights of the reservation itself as taken. `Contested` says when that shows: the
requested stay is open but for its nights, takes a night of the reservation, and no other night of it has signals that
conflict. Whatever is asked otherwise, the answer does not depend on the signals of the nights already occupied.
-/

namespace Apartments.OwnNights

open Availability Hostaway
open Hostaway.Answers (Asker baseBlocker)
open Morning.Overnight (Zone Window overnightConflicts atHour dateOf hour)

/-- `CalendarDay`, with what is read besides its rules and its inventory. -/
structure Day extends CalendarDay where
  price : Option Decimal
  status : String
deriving DecidableEq

/-- What Hostaway answers for the days from a start to an end; `none` is a failure. -/
abbrev Calendar := ℕ → ℕ → Option (List Day)

/-- `HostawayAvailabilityError`, or another error of `calculate_price`. -/
inductive PriceError
  | rejected | failed
deriving DecidableEq, Repr

structure PriceQuote where
  listingId : ℕ
  checkIn : ℕ
  checkOut : ℕ
  nights : ℕ
  guests : ℕ
  currency : String
  totalPrice : Decimal
  components : List Finance.PriceComponent
  calculatedAt : Time
deriving DecidableEq

/-- What is read of the property; `zone` is its time zone or the current one, `morningZone` the one of its mornings. -/
structure Property where
  isVisible : Bool
  hostawayIsActive : Bool
  personCapacity : Option ℕ
  minNights : Option ℕ
  maxNights : Option ℕ
  allowSameDayBooking : Option Bool
  sameDayBookingLeadTimeHours : Option ℕ
  checkInTimeStart : Option ℤ
  hours : Morning.Overnight.Property
  zone : Zone
  morningZone : Zone

/-- A night of `priced_nights`. -/
structure Night where
  date : ℕ
  value : Decimal
deriving DecidableEq

structure PricedNights where
  currency : String
  nights : List Night
  reference : ℕ × Time
deriving DecidableEq

/-- The property of the reservation, the settings, the clock, the windows of `active_stays`, `calculate_price` and what
`loyalty_state` keeps of the offered nights. -/
structure Site where
  property : Property
  flexibleCancellation : Bool
  extensionMaxNights : ℕ
  now : ℤ
  currentZone : Zone
  mornings : List Window
  calculatePrice : ℕ → ℕ → ℕ → Except PriceError PriceQuote
  savedNights : Option PricedNights

/-- The reason codes of the calendar. -/
def code : Reason → String
  | .available => "available"
  | .invalidDates => "invalid_dates"
  | .calendarIncomplete => "calendar_incomplete"
  | .closedOnArrival => "closed_on_arrival"
  | .closedOnDeparture => "closed_on_departure"
  | .minimumStayNotMet => "minimum_stay_not_met"
  | .maximumStayExceeded => "maximum_stay_exceeded"
  | .inventoryConflict => "inventory_conflict"
  | .unavailableDates => "unavailable_dates"

/-! ### The host's policy -/

/-- `check_in_datetime`. -/
def checkInDatetime (p : Property) (checkIn : ℕ) : ℤ :=
  let start := match p.checkInTimeStart with
    | none => 15
    | some h => if 0 ≤ h ∧ h ≤ 24 then h else 15
  p.zone.instant (atHour checkIn start)

/-- `policy_blocker`. -/
def policyBlocker (s : Site) (checkIn checkOut : ℕ) (arrivalChanged : Bool) : String :=
  let nights : ℤ := checkOut - checkIn
  if s.property.minNights.any fun n => n ≠ 0 ∧ nights < n then "minimum_stay_not_met"
  else if s.property.maxNights.any fun n => n ≠ 0 ∧ n < nights then "maximum_stay_exceeded"
  else if !arrivalChanged then ""
  else if dateOf (s.property.zone.wall s.now) < checkIn then ""
  else if s.property.allowSameDayBooking = some false then "same_day_change_not_allowed"
  else if s.property.sameDayBookingLeadTimeHours.any fun h =>
      h ≠ 0 ∧ checkInDatetime s.property checkIn - s.now < h * hour then "arrival_lead_time_not_met"
  else ""

/-! ### The check of a new stay -/

/-- `_validate_request`. -/
def validateRequest (s : Site) (checkIn checkOut guests : ℕ) : Option String :=
  let nights : ℤ := checkOut - checkIn
  if !s.property.isVisible ∨ !s.property.hostawayIsActive then some "property_unavailable"
  else if checkIn < dateOf (s.currentZone.wall s.now) then some "past_check_in"
  else if nights < 1 ∨ 366 < nights then some "invalid_dates"
  else if guests < 1 then some "capacity_exceeded"
  else if s.property.personCapacity.any (· < guests) then some "capacity_exceeded"
  else if s.mornings.any fun w => overnightConflicts s.property.morningZone s.property.hours checkIn checkOut w then
    some "inventory_conflict"
  else none

/-- The days as `evaluate_calendar` reads them. -/
def rows (days : List Day) : List CalendarDay := days.map (·.toCalendarDay)

/-- What `priced_nights` reads of a day. -/
structure Offered where
  date : ℕ
  price : Option Decimal
deriving DecidableEq

def offered (d : Day) : Offered := ⟨d.date, d.price⟩

/-- `AvailabilityService.check`: the quote and what is read of the calendar later, or the reason code. -/
def check (s : Site) (calendar : Calendar) (checkIn checkOut guests : ℕ) : Except String (PriceQuote × List Offered) :=
  match validateRequest s checkIn checkOut guests with
  | some reason => .error reason
  | none =>
    match calendar checkIn checkOut with
    | none => .error "hostaway_temporarily_unavailable"
    | some days =>
      match evaluateCalendar (rows days) checkIn checkOut none with
      | .available =>
        match s.calculatePrice checkIn checkOut guests with
        | .error .rejected => .error "pricing_unavailable"
        | .error .failed => .error "hostaway_temporarily_unavailable"
        | .ok quote => .ok (quote, days.map offered)
      | reason => .error (code reason)

/-- An extension: the calendar of the added nights and the price of a whole stay. -/
def extended (s : Site) (calendar : Calendar) (r : Reservation) (checkIn checkOut guests : ℕ) :
    Except String (PriceQuote × List Offered) :=
  match calendar r.checkOut checkOut with
  | none => .error "hostaway_temporarily_unavailable"
  | some days =>
    match evaluateCalendar (rows days) r.checkOut checkOut (some r.checkIn) with
    | .available =>
      match s.calculatePrice checkIn checkOut guests with
      | .error _ => .error "hostaway_temporarily_unavailable"
      | .ok quote => .ok (quote, days.map offered)
    | reason => .error (code reason)

/-! ### The prices of the nights -/

/-- The sum of the components that are kept, as it is added up; `none` if a total is missing. -/
def includedTotal (components : List Finance.PriceComponent) : Except Decimal.Trap (Option Dec) :=
  components.foldlM (fun sum c =>
    match sum, c.total with
    | some sum, some total => (Decimal.rounded (sum + total.value)).map some
    | _, _ => .ok none) (some 0)

/-- `sanitized_components`. -/
def sanitizedComponents (quote : PriceQuote) : Except Decimal.Trap (List Finance.PriceComponent) :=
  let components := quote.components.filter fun c => c.isIncludedInTotal = some true ∧ c.isDeleted = some false
  (includedTotal components).map fun
    | some total => if total ≠ quote.totalPrice.value then [] else components
    | none => []

/-- A line of the breakdown as `_lodging` reads it. -/
def part (c : Finance.PriceComponent) : SiteAdapter.Part where
  type := some (Finance.clip 50 c.type)
  includedInTotal := true
  total := match c.total with
    | some total => .finite total.value
    | none => .missing

/-- The price of a night is missing, negative or no amount of cents. -/
def unpriced (price : Option Decimal) : Except Decimal.Trap Bool :=
  match price with
  | none => .ok true
  | some d =>
    if d.value < 0 then .ok true
    else if 10 ^ 28 ≤ (Dec.roundHalfEven (d.value * 10 ^ 2)).natAbs then .error .invalidOperation
    else .ok (Dec.quantizeEven 2 d.value ≠ d.value)

/-- The sum of the nights, as it is added up. -/
def nightsTotal (prices : List (Option Decimal)) : Except Decimal.Trap Dec :=
  prices.foldlM (fun sum price => Decimal.rounded (sum + price.elim 0 Decimal.value)) 0

def signal {α : Type} : Except Decimal.Trap α → Except Finance.Failure α
  | .ok a => .ok a
  | .error trap => .error (.signal trap)

/-- `priced_nights`; an empty answer is `none`. -/
def pricedNights (quote : PriceQuote) (days : List Offered) : Except Finance.Failure (Option PricedNights) := do
  let nights := days.filter fun o => quote.checkIn ≤ o.date ∧ o.date < quote.checkOut
  if nights.length ≠ quote.nights then return none
  if ← signal (nights.anyM fun o => unpriced o.price) then return none
  let dates := (List.range quote.nights).map (quote.checkIn + ·)
  if ¬(nights.map (·.date) ⊆ dates ∧ dates ⊆ nights.map (·.date)) then return none
  if (← signal (nightsTotal (nights.map (·.price)))) ≠ quote.totalPrice.value then return none
  let components ← signal (sanitizedComponents quote)
  match SiteAdapter.lodging (some (components.map fun c => some (part c))) quote.totalPrice.value with
  | .error text => .error (.value text)
  | .ok lodging =>
    if lodging ≠ quote.totalPrice.value then return none
    return some {
      currency := quote.currency
      nights := (nights.insertionSort fun a b => a.date ≤ b.date).filterMap fun o => o.price.map (Night.mk o.date)
      reference := (quote.listingId, quote.calculatedAt) }

/-- `_extension_nights`. -/
def extensionNights (s : Site) (r : Reservation) (days : List Offered) (quote : PriceQuote) :
    Except Finance.Failure (Option PricedNights) :=
  match s.savedNights with
  | none => .ok none
  | some saved =>
    if saved.currency ≠ quote.currency then .ok none
    else
      let prior := saved.nights.map fun n => Offered.mk n.date (some n.value)
      let added := days.filter fun o => r.checkOut ≤ o.date ∧ o.date < quote.checkOut
      pricedNights quote (prior ++ added)

/-! ### The quotes -/

/-- What is handed to `_persist_priced_request`, which reads nothing of the calendar besides. -/
structure PricedRequest where
  requestType : RequestType
  newCheckIn : ℕ
  newCheckOut : ℕ
  newGuests : ℕ
  quote : PriceQuote
  nightPrices : Option PricedNights
deriving DecidableEq

inductive Answer
  | refused (code : String)
  | priced (request : PricedRequest)
  | raised (failure : Finance.Failure)
deriving DecidableEq

/-- The request of a quote. -/
def priced (requestType : RequestType) (checkIn checkOut guests : ℕ) (quote : PriceQuote) :
    Except Finance.Failure (Option PricedNights) → Answer
  | .error failure => .raised failure
  | .ok nightPrices => .priced ⟨requestType, checkIn, checkOut, guests, quote, nightPrices⟩

def createExtensionQuote (s : Site) (calendar : Calendar) (r : Reservation) (a : Asker) (newCheckOut : ℕ) : Answer :=
  if baseBlocker r a ≠ "" then .refused (baseBlocker r a)
  else if s.flexibleCancellation ∧ !a.ownerOverride ∧ checkInDatetime s.property r.checkIn ≤ s.now ∧
      !a.loyaltyBooking then
    .refused "cancellation_after_check_in_not_allowed"
  else if newCheckOut ≤ r.checkOut then .refused "extension_must_add_nights"
  else if s.extensionMaxNights < newCheckOut - r.checkOut then .refused "extension_limit_exceeded"
  else if policyBlocker s r.checkIn newCheckOut false ≠ "" then .refused (policyBlocker s r.checkIn newCheckOut false)
  else
    match extended s calendar r r.checkIn newCheckOut r.guests with
    | .error reason => .refused reason
    | .ok (quote, days) =>
      priced .extendStay r.checkIn newCheckOut r.guests quote (extensionNights s r days quote)

/-- The change asks for a later departure and nothing else. -/
def isExtension (r : Reservation) (newCheckIn newCheckOut newGuests : ℕ) : Prop :=
  newCheckIn = r.checkIn ∧ newGuests = r.guests ∧ r.checkOut < newCheckOut

instance (r : Reservation) (newCheckIn newCheckOut newGuests : ℕ) :
    Decidable (isExtension r newCheckIn newCheckOut newGuests) :=
  inferInstanceAs (Decidable (_ ∧ _ ∧ _))

/-- The refusals of `create_change_quote` between its extensions and the check. -/
def changeRefusal (s : Site) (newCheckIn newCheckOut newGuests : ℕ) : Option String :=
  if newCheckOut ≤ newCheckIn then some "invalid_dates"
  else if newGuests = 0 then some "invalid_guests"
  else if policyBlocker s newCheckIn newCheckOut true ≠ "" then some (policyBlocker s newCheckIn newCheckOut true)
  else if s.property.personCapacity.any fun capacity => capacity ≠ 0 ∧ capacity < newGuests then some "capacity_exceeded"
  else none

def createChangeQuote (s : Site) (calendar : Calendar) (r : Reservation) (a : Asker)
    (newCheckIn newCheckOut newGuests : ℕ) : Answer :=
  if baseBlocker r a ≠ "" then .refused (baseBlocker r a)
  else if isExtension r newCheckIn newCheckOut newGuests then createExtensionQuote s calendar r a newCheckOut
  else
    match changeRefusal s newCheckIn newCheckOut newGuests with
    | some reason => .refused reason
    | none =>
      match check s calendar newCheckIn newCheckOut newGuests with
      | .error reason => .refused reason
      | .ok (quote, days) =>
        let requestType := if newCheckIn = r.checkIn ∧ newCheckOut = r.checkOut then .changeGuests else .changeDates
        priced requestType newCheckIn newCheckOut newGuests quote (pricedNights quote days)

/-! ### The revalidation -/

/-- What `_revalidate_quote` reads of the request; `systemTotal` is the text in its snapshot. -/
structure Modification where
  requestType : RequestType
  newCheckIn : ℕ
  newCheckOut : ℕ
  newGuests : ℕ
  newTotal : Dec
  priceDifference : Dec
  currency : String
  systemTotal : Option String
deriving DecidableEq

/-- `_system_total_from_snapshot`; an infinity or a NaN, which equals no price, is `none`. -/
def systemTotalFromSnapshot (m : Modification) : Option Dec :=
  match m.systemTotal.map Decimal.parse with
  | some (some (.finite d)) => some d.value
  | some (some .special) => none
  | some none | none => some m.newTotal

/-- `ModificationRevalidation`. -/
structure Revalidation where
  code : String
  quote : Option PriceQuote
deriving DecidableEq

/-- `_revalidate_quote`, after the calendar and the price. -/
def compareQuote (r : Reservation) (m : Modification) : Except String (PriceQuote × List Offered) → Revalidation
  | .error reason => ⟨reason, none⟩
  | .ok (quote, _) =>
    if quote.currency ≠ m.currency then ⟨"currency_changed", some quote⟩
    else if some quote.totalPrice.value ≠ systemTotalFromSnapshot m ∨
        m.newTotal - r.totalPrice ≠ m.priceDifference then
      ⟨"price_changed", some quote⟩
    else ⟨"ready", some quote⟩

def revalidateQuote (s : Site) (calendar : Calendar) (r : Reservation) (m : Modification) : Revalidation :=
  compareQuote r m <|
    if m.requestType = .extendStay then extended s calendar r m.newCheckIn m.newCheckOut m.newGuests
    else check s calendar m.newCheckIn m.newCheckOut m.newGuests

/-! ### Calendars that agree but for the signals of occupied nights -/

/-- The reservation occupies the night. -/
def Own (r : Reservation) (date : ℕ) : Prop := r.checkIn ≤ date ∧ date < r.checkOut

instance (r : Reservation) : DecidablePred (Own r) := fun _ => inferInstanceAs (Decidable (_ ∧ _))

/-- The day with one free unit. -/
def freed (d : CalendarDay) : CalendarDay :=
  { d with
    isAvailable := some true
    countAvailableUnits := none
    availableUnitsToSell := none
    countReservedUnits := none
    countBlockedUnits := none
    desiredUnitsToSell := none }

def Day.freed (d : Day) : Day := { d with toCalendarDay := OwnNights.freed d.toCalendarDay, status := "available" }

/-- The days agree, or are one occupied night with other inventory signals. -/
structure SameBut (r : Reservation) (d d' : Day) : Prop where
  rules : d.freed = d'.freed
  signals : ¬ Own r d.date → d = d'

/-- The calendars differ only in the inventory signals of nights that the reservation occupies. -/
def Differ (r : Reservation) (calendar other : Calendar) : Prop :=
  ∀ first last, Option.Rel (List.Forall₂ (SameBut r)) (calendar first last) (other first last)

/-- The requested stay is open but for its nights, takes an occupied night, and no other night of it has signals that
conflict. -/
structure Contested (r : Reservation) (days : List CalendarDay) (checkIn checkOut : ℕ) : Prop where
  opened : Open (byDate (days.map freed)) checkIn checkOut none
  own : ∃ date, checkIn ≤ date ∧ date < checkOut ∧ Own r date
  clear : ∀ date day, checkIn ≤ date → date < checkOut → ¬ Own r date → byDate days date = some day →
    (resolveDayInventory day).hasConflict = false

variable {r : Reservation} {s : Site} {a : Asker} {calendar other : Calendar} {l l' : List Day}
  {days days' nights : List CalendarDay} {checkIn checkOut guests date : ℕ} {existingCheckIn : Option ℕ}

/-! ### The calendar with its nights freed -/

theorem byDate_map {f : CalendarDay → CalendarDay} (hf : ∀ d, (f d).date = d.date) :
    byDate (days.map f) date = (byDate days date).map f := by
  have hp : ((fun d : CalendarDay => d.date == date) ∘ f) = fun d => d.date == date := by
    funext d
    show ((f d).date == date) = _
    rw [hf]
  rw [byDate, ← List.map_reverse, List.find?_map, hp, byDate]

theorem byDate_freed : byDate (days.map freed) date = (byDate days date).map freed := byDate_map fun _ => rfl

theorem resolve_freed (d : CalendarDay) : resolveDayInventory (freed d) = ⟨true, .isAvailable, false, false⟩ := rfl

theorem mapM_map {α β γ : Type} {f : α → Option β} {g : β → γ} (xs : List α) :
    xs.mapM (fun x => (f x).map g) = (xs.mapM f).map (List.map g) := by
  induction xs with
  | nil => rfl
  | cons x xs ih =>
    simp only [List.mapM_cons, ih, Option.bind_eq_bind, pure]
    cases f x <;> cases xs.mapM f <;> rfl

theorem mapM_congr {α β : Type} {f g : α → Option β} {xs : List α} (h : ∀ x ∈ xs, f x = g x) : xs.mapM f = xs.mapM g := by
  induction xs with
  | nil => rfl
  | cons x xs ih =>
    obtain ⟨hx, hxs⟩ := List.forall_mem_cons.1 h
    rw [List.mapM_cons, List.mapM_cons, hx, ih hxs]

theorem filterMap_of_mapM {α β : Type} {f : α → Option β} {xs : List α} {ys : List β} (h : xs.mapM f = some ys) :
    xs.filterMap f = ys := by
  have hall := mapM_eq_some.1 h
  clear h
  induction hall with
  | nil => rfl
  | cons hx _ ih => rw [List.filterMap_cons_some hx, ih]

/-- What the nights of a stay say that passes every other test. -/
def inventory (nights : List CalendarDay) : Reason :=
  if nights.any fun day => (resolveDayInventory day).hasConflict then .inventoryConflict
  else if nights.any fun day => !(resolveDayInventory day).isAvailable then .unavailableDates
  else .available

/-- The nights of a stay that the calendar knows. -/
def nightsOf (days : List CalendarDay) (checkIn checkOut : ℕ) : List CalendarDay :=
  (stayDates checkIn checkOut).filterMap (byDate days)

theorem evaluateDays_freed (arrival departure : CalendarDay) (nights : List CalendarDay) (stayNights : ℤ)
    (extension : Bool) : evaluateDays arrival departure nights stayNights extension =
      if evaluateDays (freed arrival) (freed departure) (nights.map freed) stayNights extension = .available then
        inventory nights
      else evaluateDays (freed arrival) (freed departure) (nights.map freed) stayNights extension := by
  have hconflict : ((nights.map freed).any fun day => (resolveDayInventory day).hasConflict) = false := by
    simp [resolve_freed]
  have havailable : ((nights.map freed).any fun day => !(resolveDayInventory day).isAvailable) = false := by
    simp [resolve_freed]
  unfold evaluateDays
  rw [hconflict, havailable]
  simp only [freed, inventory]
  split_ifs <;> first | rfl | contradiction

/-- Either the stay is refused with every night free, or its nights decide. -/
theorem evaluateCalendar_freed (days : List CalendarDay) (checkIn checkOut : ℕ) (existingCheckIn : Option ℕ) :
    evaluateCalendar days checkIn checkOut existingCheckIn =
      if evaluateCalendar (days.map freed) checkIn checkOut existingCheckIn = .available then
        inventory (nightsOf days checkIn checkOut)
      else evaluateCalendar (days.map freed) checkIn checkOut existingCheckIn := by
  have hfreed : byDate (days.map freed) = fun date => (byDate days date).map freed :=
    funext fun _ => byDate_freed
  unfold evaluateCalendar
  rw [hfreed]
  dsimp only
  rw [mapM_map]
  by_cases hinvalid : (checkOut : ℤ) - checkIn < 1 ∨ 366 < (checkOut : ℤ) - existingCheckIn.getD checkIn ∨
      existingCheckIn.any (checkIn ≤ ·) = true
  · rw [if_pos hinvalid, if_pos hinvalid]
    rfl
  · rw [if_neg hinvalid, if_neg hinvalid]
    cases harrival : byDate days checkIn with
    | none => rfl
    | some arrival =>
      cases hdeparture : byDate days checkOut with
      | none => rfl
      | some departure =>
        cases hnights : (stayDates checkIn checkOut).mapM (byDate days) with
        | none => rfl
        | some nights =>
          have hnightsOf : nightsOf days checkIn checkOut = nights := filterMap_of_mapM hnights
          rw [hnightsOf]
          exact evaluateDays_freed ..

/-- A calendar is read on the days of the stay only. -/
theorem evaluateCalendar_congr (h : ∀ date, checkIn ≤ date → date ≤ checkOut → byDate days date = byDate days' date) :
    evaluateCalendar days checkIn checkOut existingCheckIn = evaluateCalendar days' checkIn checkOut existingCheckIn := by
  unfold evaluateCalendar
  dsimp only
  by_cases hle : checkIn ≤ checkOut
  · have hnights : (stayDates checkIn checkOut).mapM (byDate days) = (stayDates checkIn checkOut).mapM (byDate days') :=
      mapM_congr fun date hdate => h date (mem_stayDates.1 hdate).1 (mem_stayDates.1 hdate).2.le
    rw [h checkIn le_rfl hle, h checkOut hle le_rfl, hnights]
  · have hinvalid : (checkOut : ℤ) - checkIn < 1 := by omega
    rw [if_pos (.inl hinvalid), if_pos (.inl hinvalid)]

theorem mem_nightsOf {day : CalendarDay} :
    day ∈ nightsOf days checkIn checkOut ↔ ∃ date, checkIn ≤ date ∧ date < checkOut ∧ byDate days date = some day := by
  simp only [nightsOf, List.mem_filterMap, mem_stayDates, and_assoc]

theorem inventory_eq_conflict :
    inventory nights = .inventoryConflict ↔ ∃ day ∈ nights, (resolveDayInventory day).hasConflict = true := by
  rw [← List.any_eq_true, inventory]
  split_ifs with hconflict
  · exact iff_of_true rfl hconflict
  · exact iff_of_false nofun hconflict
  · exact iff_of_false nofun hconflict

/-- Two calendars with the same rules, and the same nights but for the occupied ones. -/
structure Alike (r : Reservation) (days days' : List CalendarDay) : Prop where
  rules : days.map freed = days'.map freed
  others : ∀ date, ¬ Own r date → byDate days date = byDate days' date

/-- A stay that is not contested gets one answer. -/
theorem Alike.evaluateCalendar (h : Alike r days days') (hn : ¬ Contested r days checkIn checkOut) :
    evaluateCalendar days checkIn checkOut none = Availability.evaluateCalendar days' checkIn checkOut none := by
  rw [evaluateCalendar_freed days, evaluateCalendar_freed days', ← h.rules]
  split_ifs with hfree
  swap
  · rfl
  by_cases hown : ∃ date, checkIn ≤ date ∧ date < checkOut ∧ Own r date
  · -- another night conflicts in both calendars
    have hclear : ¬ ∀ date day, checkIn ≤ date → date < checkOut → ¬ Own r date → byDate days date = some day →
        (resolveDayInventory day).hasConflict = false := fun hclear =>
      hn ⟨(available_iff_open ..).1 hfree, hown, hclear⟩
    push Not at hclear
    obtain ⟨date, day, hle, hlt, hother, hday, hconflict⟩ := hclear
    have hconflict : (resolveDayInventory day).hasConflict = true := by simpa using hconflict
    have hday' : byDate days' date = some day := (h.others date hother).symm.trans hday
    rw [inventory_eq_conflict.2 ⟨day, mem_nightsOf.2 ⟨date, hle, hlt, hday⟩, hconflict⟩,
      inventory_eq_conflict.2 ⟨day, mem_nightsOf.2 ⟨date, hle, hlt, hday'⟩, hconflict⟩]
  · have hnights : nightsOf days checkIn checkOut = nightsOf days' checkIn checkOut := by
      refine List.filterMap_congr fun date hdate => h.others date fun ho => hown ⟨date, ?_, ?_, ho⟩
      · exact (mem_stayDates.1 hdate).1
      · exact (mem_stayDates.1 hdate).2
    rw [hnights]

/-- An extension reads no occupied night. -/
theorem Alike.extension (h : Alike r days days') :
    Availability.evaluateCalendar days r.checkOut checkOut (some r.checkIn) =
      Availability.evaluateCalendar days' r.checkOut checkOut (some r.checkIn) := by
  refine evaluateCalendar_congr fun date hle _ => h.others date fun ho => ?_
  have := ho.2
  omega

/-! ### Two calendars, one answer -/

theorem Differ.cases (h : Differ r calendar other) (first last : ℕ) :
    (calendar first last = none ∧ other first last = none) ∨
      ∃ l l', calendar first last = some l ∧ other first last = some l' ∧ List.Forall₂ (SameBut r) l l' := by
  have hdays := h first last
  generalize calendar first last = c at hdays ⊢
  generalize other first last = c' at hdays ⊢
  cases hdays with
  | none => exact .inl ⟨rfl, rfl⟩
  | some hl => exact .inr ⟨_, _, rfl, rfl, hl⟩

theorem date_of_freed {d d' : CalendarDay} (h : freed d = freed d') : d.date = d'.date := by
  have hdate : (freed d).date = (freed d').date := congrArg CalendarDay.date h
  exact hdate

theorem SameBut.day {d d' : Day} (h : SameBut r d d') : freed d.toCalendarDay = freed d'.toCalendarDay :=
  congrArg Day.toCalendarDay h.rules

theorem SameBut.offered {d d' : Day} (h : SameBut r d d') : offered d = OwnNights.offered d' := by
  have hprice : d.freed.price = d'.freed.price := congrArg Day.price h.rules
  exact congrArg₂ Offered.mk (date_of_freed h.day) hprice

/-- Reading by date finds equal days, or skips both. -/
theorem find_of_sameBut (hother : ¬ Own r date) (h : List.Forall₂ (SameBut r) l l') :
    (rows l).find? (·.date == date) = (rows l').find? (·.date == date) := by
  induction h with
  | nil => rfl
  | @cons d d' l l' hd _ ih =>
    have hdate : d.date = d'.date := date_of_freed hd.day
    simp only [rows, List.map_cons, List.find?_cons, ← hdate] at ih ⊢
    by_cases hhit : d.date = date
    · have hsame : d = d' := hd.signals (hhit ▸ hother)
      rw [hsame, ih]
    · rw [beq_false_of_ne hhit, ih]

theorem alike_of_sameBut (h : List.Forall₂ (SameBut r) l l') : Alike r (rows l) (rows l') := by
  constructor
  · induction h with
    | nil => rfl
    | cons hd _ ih =>
      simp only [rows, List.map_cons, List.cons.injEq] at ih ⊢
      exact ⟨hd.day, ih⟩
  · intro date hother
    have hreverse := find_of_sameBut hother (List.forall₂_reverse_iff.2 h)
    rwa [rows, rows, List.map_reverse, List.map_reverse] at hreverse

theorem offered_of_sameBut (h : List.Forall₂ (SameBut r) l l') : l.map offered = l'.map offered := by
  induction h with
  | nil => rfl
  | @cons d d' l l' hd _ ih =>
    rw [List.map_cons, List.map_cons, hd.offered, ih]

theorem Differ.extended (h : Differ r calendar other) :
    extended s calendar r checkIn checkOut guests = OwnNights.extended s other r checkIn checkOut guests := by
  unfold OwnNights.extended
  rcases h.cases r.checkOut checkOut with ⟨hfirst, hsecond⟩ | ⟨l, l', hfirst, hsecond, hdays⟩ <;> rw [hfirst, hsecond]
  show (match Availability.evaluateCalendar .. with | .available => _ | _ => _) = _
  rw [(alike_of_sameBut hdays).extension, offered_of_sameBut hdays]

/-- The stay is refused by the property, or the calendar does not leave it to the occupied nights. -/
theorem Differ.check (h : Differ r calendar other) (hn : validateRequest s checkIn checkOut guests = none →
    ∀ days, calendar checkIn checkOut = some days → ¬ Contested r (rows days) checkIn checkOut) :
    check s calendar checkIn checkOut guests = OwnNights.check s other checkIn checkOut guests := by
  unfold OwnNights.check
  cases hvalid : validateRequest s checkIn checkOut guests with
  | some reason => rfl
  | none =>
    rcases h.cases checkIn checkOut with ⟨hfirst, hsecond⟩ | ⟨l, l', hfirst, hsecond, hdays⟩ <;> rw [hfirst, hsecond]
    dsimp only
    rw [(alike_of_sameBut hdays).evaluateCalendar (hn hvalid l hfirst), offered_of_sameBut hdays]

/-! ### Two calendars that part a contested stay -/

/-- The day with a unit to sell that is not available. -/
def taken (d : CalendarDay) : CalendarDay := { d with isAvailable := some false, availableUnitsToSell := some 1 }

/-- The calendar with other signals on the occupied nights. -/
def altered (r : Reservation) (f : CalendarDay → CalendarDay) (l : List Day) : List Day :=
  l.map fun d => if Own r d.date then { d with toCalendarDay := f d.toCalendarDay } else d

def alteredCalendar (r : Reservation) (f : CalendarDay → CalendarDay) (calendar : Calendar) : Calendar :=
  fun first last => (calendar first last).map (altered r f)

theorem sameBut_altered {f : CalendarDay → CalendarDay} (hf : ∀ d, freed (f d) = freed d) (l : List Day) :
    List.Forall₂ (SameBut r) l (altered r f l) := by
  rw [altered, List.forall₂_map_right_iff, List.forall₂_same]
  intro d _
  by_cases hown : Own r d.date
  · rw [if_pos hown]
    refine ⟨?_, fun hother => absurd hown hother⟩
    simp only [Day.freed, hf]
  · rw [if_neg hown]
    exact ⟨rfl, fun _ => rfl⟩

theorem differ_altered {f : CalendarDay → CalendarDay} (hf : ∀ d, freed (f d) = freed d) (calendar : Calendar) :
    Differ r calendar (alteredCalendar r f calendar) := by
  intro first last
  unfold alteredCalendar
  cases calendar first last with
  | none => exact .none
  | some l => exact .some (sameBut_altered hf l)

theorem byDate_altered {f : CalendarDay → CalendarDay} (hf : ∀ d, freed (f d) = freed d) :
    byDate (rows (altered r f l)) date = (byDate (rows l) date).map fun d => if Own r d.date then f d else d := by
  have hrows : rows (altered r f l) = (rows l).map fun d => if Own r d.date then f d else d := by
    simp only [rows, altered, List.map_map]
    refine List.map_congr_left fun d _ => ?_
    simp only [Function.comp]
    split_ifs <;> rfl
  rw [hrows]
  refine byDate_map fun d => ?_
  split_ifs
  · exact date_of_freed (hf d)
  · rfl

theorem conflict_taken (d : CalendarDay) : (resolveDayInventory (taken d)).hasConflict = true := by
  have hsignals : 1 < ((availabilitySignals (taken d)).map (·.2)).dedup.length := by
    rw [conflict_iff, availabilitySignals_values]
    exact ⟨by simp [unitCounts, taken], by simp [taken]⟩
  unfold resolveDayInventory
  rw [if_pos hsignals]

theorem byDate_date {d : CalendarDay} (h : byDate days date = some d) : d.date = date := by
  simpa using List.find?_some h

/-- With the nights all free the stay is available, so the nights decide. -/
theorem Contested.inventory {f : CalendarDay → CalendarDay} (h : Contested r (rows l) checkIn checkOut)
    (hf : ∀ d, freed (f d) = freed d) :
    evaluateCalendar (rows (altered r f l)) checkIn checkOut none =
      OwnNights.inventory (nightsOf (rows (altered r f l)) checkIn checkOut) := by
  have halike : Alike r (rows l) (rows (altered r f l)) := alike_of_sameBut (sameBut_altered hf l)
  rw [evaluateCalendar_freed, ← halike.rules, if_pos ((available_iff_open ..).2 h.opened)]

/-- With the occupied nights taken the stay conflicts. -/
theorem Contested.taken (h : Contested r (rows l) checkIn checkOut) :
    evaluateCalendar (rows (altered r OwnNights.taken l)) checkIn checkOut none = .inventoryConflict := by
  have hf : ∀ d, freed (OwnNights.taken d) = freed d := fun _ => rfl
  obtain ⟨date, hle, hlt, hown⟩ := h.own
  obtain ⟨day, hday, -⟩ := h.opened.nights date hle hlt
  rw [byDate_freed] at hday
  obtain ⟨d, hd, -⟩ := Option.map_eq_some_iff.1 hday
  rw [h.inventory hf, inventory_eq_conflict]
  refine ⟨OwnNights.taken d, mem_nightsOf.2 ⟨date, hle, hlt, ?_⟩, conflict_taken d⟩
  have hd_own : Own r d.date := (byDate_date hd).symm ▸ hown
  rw [byDate_altered hf, hd, Option.map_some, if_pos hd_own]

/-- With them freed it does not. -/
theorem Contested.freed (h : Contested r (rows l) checkIn checkOut) :
    evaluateCalendar (rows (altered r OwnNights.freed l)) checkIn checkOut none ≠ .inventoryConflict := by
  have hf : ∀ d, OwnNights.freed (OwnNights.freed d) = OwnNights.freed d := fun _ => rfl
  rw [h.inventory hf, ne_eq, inventory_eq_conflict]
  rintro ⟨day, hmem, hconflict⟩
  obtain ⟨date, hle, hlt, hday⟩ := mem_nightsOf.1 hmem
  rw [byDate_altered hf] at hday
  obtain ⟨d, hd, rfl⟩ := Option.map_eq_some_iff.1 hday
  have hdate := byDate_date hd
  by_cases hown : Own r date
  · rw [if_pos (hdate.symm ▸ hown), resolve_freed] at hconflict
    cases hconflict
  · rw [if_neg (hdate.symm ▸ hown), h.clear date d hle hlt hown hd] at hconflict
    cases hconflict

/-- The check of a new stay comes to a calendar that leaves it to the occupied nights. -/
def Competes (s : Site) (calendar : Calendar) (r : Reservation) (checkIn checkOut guests : ℕ) : Prop :=
  validateRequest s checkIn checkOut guests = none ∧
    ∃ days, calendar checkIn checkOut = some days ∧ Contested r (rows days) checkIn checkOut

theorem code_eq_conflict {reason : Reason} : code reason = "inventory_conflict" ↔ reason = .inventoryConflict := by
  cases reason <;> decide

theorem Competes.taken (h : Competes s calendar r checkIn checkOut guests) :
    OwnNights.check s (alteredCalendar r OwnNights.taken calendar) checkIn checkOut guests =
      .error "inventory_conflict" := by
  obtain ⟨hvalid, l, hl, hcontested⟩ := h
  unfold OwnNights.check alteredCalendar
  rw [hvalid, hl]
  dsimp only [Option.map_some]
  rw [hcontested.taken]
  rfl

theorem Competes.freed (h : Competes s calendar r checkIn checkOut guests) :
    OwnNights.check s (alteredCalendar r OwnNights.freed calendar) checkIn checkOut guests ≠
      .error "inventory_conflict" := by
  obtain ⟨hvalid, l, hl, hcontested⟩ := h
  unfold OwnNights.check alteredCalendar
  rw [hvalid, hl]
  dsimp only [Option.map_some]
  have hreason := hcontested.freed
  intro h
  split at h
  · split at h
    · exact absurd (Except.error.inj h) (by decide)
    · exact absurd (Except.error.inj h) (by decide)
    · cases h
  · exact hreason (code_eq_conflict.1 (Except.error.inj h))

/-! ### The answers -/

/-- The quote of an extension does not depend on the occupied nights. -/
theorem Differ.createExtensionQuote (h : Differ r calendar other) :
    createExtensionQuote s other r a checkOut = OwnNights.createExtensionQuote s calendar r a checkOut := by
  unfold OwnNights.createExtensionQuote
  rw [h.extended]

/-- A change of another shape is answered the same exactly if the stay does not compete with itself. -/
theorem createChangeQuote_iff : (∀ other, Differ r calendar other →
    createChangeQuote s other r a checkIn checkOut guests = createChangeQuote s calendar r a checkIn checkOut guests) ↔
      ¬ (baseBlocker r a = "" ∧ ¬ isExtension r checkIn checkOut guests ∧ changeRefusal s checkIn checkOut guests = none ∧
        Competes s calendar r checkIn checkOut guests) := by
  constructor
  · rintro hall ⟨hasked, hgeneral, hrefusal, hcompetes⟩
    have htaken := hall _ (differ_altered (f := OwnNights.taken) (fun _ => rfl) calendar)
    have hfreed := hall _ (differ_altered (f := OwnNights.freed) (fun _ => rfl) calendar)
    have hsame := hfreed.trans htaken.symm
    unfold createChangeQuote at hsame
    rw [if_neg (not_not.2 hasked), if_neg hgeneral, hrefusal, if_neg (not_not.2 hasked), if_neg hgeneral,
      hcompetes.taken] at hsame
    dsimp only at hsame
    cases hcheck : OwnNights.check s (alteredCalendar r OwnNights.freed calendar) checkIn checkOut guests with
    | error reason =>
      rw [hcheck] at hsame
      exact hcompetes.freed (hcheck.trans (congrArg _ (Answer.refused.inj hsame)))
    | ok quoted =>
      rw [hcheck] at hsame
      dsimp only [priced] at hsame
      split at hsame <;> cases hsame
  · intro hn other hdiffer
    unfold createChangeQuote
    by_cases hasked : baseBlocker r a ≠ ""
    · rw [if_pos hasked, if_pos hasked]
    rw [if_neg hasked, if_neg hasked]
    by_cases hext : isExtension r checkIn checkOut guests
    · rw [if_pos hext, if_pos hext, hdiffer.createExtensionQuote]
    rw [if_neg hext, if_neg hext]
    cases hrefusal : changeRefusal s checkIn checkOut guests with
    | some reason => rfl
    | none =>
      have hcheck : OwnNights.check s calendar checkIn checkOut guests = OwnNights.check s other checkIn checkOut guests :=
        hdiffer.check fun hvalid days hdays hcontested =>
          hn ⟨not_not.1 hasked, hext, hrefusal, hvalid, days, hdays, hcontested⟩
      rw [hcheck]

/-- So is a revalidation. -/
theorem revalidateQuote_iff {m : Modification} : (∀ other, Differ r calendar other →
    revalidateQuote s other r m = revalidateQuote s calendar r m) ↔
      ¬ (m.requestType ≠ .extendStay ∧ Competes s calendar r m.newCheckIn m.newCheckOut m.newGuests) := by
  constructor
  · rintro hall ⟨htype, hcompetes⟩
    have htaken := hall _ (differ_altered (f := OwnNights.taken) (fun _ => rfl) calendar)
    have hfreed := hall _ (differ_altered (f := OwnNights.freed) (fun _ => rfl) calendar)
    have hsame := hfreed.trans htaken.symm
    unfold revalidateQuote at hsame
    rw [if_neg htype, if_neg htype, hcompetes.taken] at hsame
    cases hcheck : OwnNights.check s (alteredCalendar r OwnNights.freed calendar) m.newCheckIn m.newCheckOut
        m.newGuests with
    | error reason =>
      rw [hcheck] at hsame
      have hreason : reason = "inventory_conflict" := congrArg Revalidation.code hsame
      exact hcompetes.freed (hreason ▸ hcheck)
    | ok quoted =>
      rw [hcheck] at hsame
      have hquote := congrArg Revalidation.quote hsame
      dsimp only [compareQuote] at hquote
      split_ifs at hquote
  · intro hn other hdiffer
    unfold revalidateQuote
    by_cases htype : m.requestType = .extendStay
    · rw [if_pos htype, if_pos htype, hdiffer.extended]
    · rw [if_neg htype, if_neg htype, hdiffer.check fun hvalid days hdays hcontested =>
        hn ⟨htype, hvalid, days, hdays, hcontested⟩]

/-- On two calendars that differ only in the inventory signals of occupied nights, an extension is answered the same;
another change or its revalidation is, exactly if the check of a new stay does not leave it to the occupied nights. -/
theorem occupied_nights_ignored_iff (s : Site) (calendar : Calendar) (r : Reservation) (a : Asker) :
    (∀ newCheckOut other, Differ r calendar other →
      createExtensionQuote s other r a newCheckOut = createExtensionQuote s calendar r a newCheckOut) ∧
    (∀ newCheckIn newCheckOut newGuests,
      (∀ other, Differ r calendar other → createChangeQuote s other r a newCheckIn newCheckOut newGuests =
        createChangeQuote s calendar r a newCheckIn newCheckOut newGuests) ↔
      ¬ (baseBlocker r a = "" ∧ ¬ isExtension r newCheckIn newCheckOut newGuests ∧
        changeRefusal s newCheckIn newCheckOut newGuests = none ∧
        Competes s calendar r newCheckIn newCheckOut newGuests)) ∧
    ∀ m, (∀ other, Differ r calendar other → revalidateQuote s other r m = revalidateQuote s calendar r m) ↔
      ¬ (m.requestType ≠ .extendStay ∧ Competes s calendar r m.newCheckIn m.newCheckOut m.newGuests) :=
  ⟨fun _ _ hdiffer => hdiffer.createExtensionQuote, fun _ _ _ => createChangeQuote_iff, fun _ => revalidateQuote_iff⟩

/-! ### One more guest -/

/-- Four nights for 300 each. -/
def sampleQuote (checkIn checkOut guests : ℕ) : PriceQuote where
  listingId := 40160
  checkIn := checkIn
  checkOut := checkOut
  nights := checkOut - checkIn
  guests := guests
  currency := "SAR"
  totalPrice := ⟨false, 1200, 0⟩
  components := [⟨none, "baseRate", "baseRate", "Base rate", "", none, ⟨false, 1200, 0⟩, some ⟨false, 1200, 0⟩,
    some true, some true, some false⟩]
  calculatedAt := 5

def sampleSite : Site where
  property := ⟨true, true, some 4, none, none, none, none, none, ⟨none, none⟩, Morning.Overnight.riyadh,
    Morning.Overnight.riyadh⟩
  flexibleCancellation := true
  extensionMaxNights := 30
  now := 90 * Morning.Overnight.day
  currentZone := Morning.Overnight.riyadh
  mornings := []
  calculatePrice := fun checkIn checkOut guests => .ok (sampleQuote checkIn checkOut guests)
  savedNights := none

/-- The day of a calendar on which the stay of the nights 100 to 103 is booked, or would not be. -/
def sampleDay (booked : Bool) (date : ℕ) : Day where
  date := date
  isAvailable := some (!booked || date == 104)
  minimumStay := none
  maximumStay := none
  closedOnArrival := none
  closedOnDeparture := none
  countAvailableUnits := none
  availableUnitsToSell := none
  countReservedUnits := none
  countBlockedUnits := none
  desiredUnitsToSell := none
  price := some ⟨false, 300, 0⟩
  status := if booked && date != 104 then "reserved" else "available"

def sampleCalendar (booked : Bool) : Calendar := fun _ _ => some ([100, 101, 102, 103, 104].map (sampleDay booked))

def sampleAsker : Asker := ⟨"session", false, "", "session", false⟩

/-- One more guest for a confirmed stay is refused because its own nights are booked. -/
theorem guests_refused_for_own_nights :
    Changes.stay.normalizedStatus = .confirmed ∧
    Differ Changes.stay (sampleCalendar false) (sampleCalendar true) ∧
    createChangeQuote sampleSite (sampleCalendar true) Changes.stay sampleAsker 100 104 3 =
      .refused "unavailable_dates" ∧
    createChangeQuote sampleSite (sampleCalendar false) Changes.stay sampleAsker 100 104 3 =
      .priced ⟨.changeGuests, 100, 104, 3, sampleQuote 100 104 3, some ⟨"SAR", [100, 101, 102, 103].map
        fun date => ⟨date, ⟨false, 300, 0⟩⟩, (40160, 5)⟩⟩ := by
  refine ⟨rfl, ?_, ?_, ?_⟩
  · intro _ _
    refine .some ?_
    rw [List.forall₂_map_left_iff, List.forall₂_map_right_iff, List.forall₂_same]
    intro date hdate
    refine ⟨rfl, fun hother => ?_⟩
    have hlast : date = 104 := by
      simp only [Own, List.mem_cons, List.not_mem_nil, or_false] at hdate hother
      have hin : Changes.stay.checkIn = 100 := rfl
      have hout : Changes.stay.checkOut = 104 := rfl
      change ¬(Changes.stay.checkIn ≤ date ∧ date < Changes.stay.checkOut) at hother
      omega
    rw [hlast]
    rfl
  · decide +kernel
  · decide +kernel

end Apartments.OwnNights
