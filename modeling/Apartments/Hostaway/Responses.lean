import Apartments.Decimals
import Apartments.Hostaway.Sanitize
import Apartments.Lib.Outcome
import Apartments.Models
import Apartments.Reservations.Availability

/-!
# Calendars and prices of the channel (`integrations/hostaway/availability_validators.py`)

The two documents that a stay is offered by, and `calculate_price` of the client. A float of the body comes with the text
that `str` gives it. The names of the fields and of their types, which only an audit prints, are left out, and so are the
columns of a day that only an audit reads.
-/

namespace Apartments.Responses

open Webhooks (Json)

/-- `HostawayResponseError`, `HostawayAvailabilityError`, or an exception that no handler of this package names. -/
inductive Refusal
  | response (text : String)
  | availability (text : String)
  | other (name : String)
deriving DecidableEq

/-- The settings, and `date.fromisoformat` with a number for every date. -/
structure Library where
  fromIsoFormat : String → Option ℕ
  supportedCurrencies : List String

/-! ### Values -/

/-- `item.get(key)`. -/
def field (item : Json) (key : String) : Json := (item.get key).getD .null

/-- `_first_present`, for two keys. -/
def firstPresent (item : Json) (key other : String) : Json := ((item.get key).or (item.get other)).getD .null

/-- `Decimal(str(value))`. -/
def decimalOf (value : Json) : Option Decimal.Number := value.str?.bind Decimal.parse

/-- `value == n`. -/
def isNumber (n : ℤ) : Json → Bool
  | .int m => m == n
  | .float text _ => (Decimal.parse text).any fun x =>
    match x with
    | .finite d => d.value == n
    | .special => false
  | _ => false

/-- `_date`. -/
def readDate (lib : Library) (value : Json) (name : String) : Except Refusal ℕ :=
  match value with
  | .str text => found (lib.fromIsoFormat text) (.response (name ++ " must be a valid date."))
  | _ => .error (.response (name ++ " must be a YYYY-MM-DD string."))

/-- The truth that `_optional_bool` finds in a value. -/
def flagOf : Json → Option Bool
  | .bool b => some b
  | .str text => if text = "1" then some true else if text = "0" then some false else none
  | value => if isNumber 1 value then some true else if isNumber 0 value then some false else none

/-- `_optional_bool`. -/
def optionalBool (value : Json) (name : String) : Except Refusal (Option Bool) :=
  if value.isBlank then .ok none
  else do return some (← found (flagOf value) (.response (name ++ " must be boolean or 0/1.")))

/-- `_required_bool`. -/
def requiredBool (value : Json) (name : String) : Except Refusal Bool := do
  found (← optionalBool value name) (.response (name ++ " is required."))

/-- The number that `_integer` finds in a value. -/
def wholeOf : Json → Option ℤ
  | .bool _ => none
  | value => (decimalOf value).bind fun x =>
    match x with
    | .finite d => if d.value.den = 1 then some d.value.num else none
    | .special => none

/-- `_integer`. -/
def readInteger (value : Json) (name : String) : Except Refusal ℤ :=
  found (wholeOf value) (.response (name ++ " must be an integer."))

/-- An integer that is not there, or is at least `least`. -/
def optionalInt (least : ℤ) (text : String) (value : Json) (name : String) : Except Refusal (Option ℤ) :=
  if value.isBlank then .ok none
  else do
    let parsed ← readInteger value name
    raiseIf (parsed < least) (.response (name ++ text))
    return some parsed

/-- `_optional_nonnegative_int`. -/
def optionalNonnegativeInt : Json → String → Except Refusal (Option ℤ) := optionalInt 0 " cannot be negative."

/-- `_optional_positive_int`. -/
def optionalPositiveInt : Json → String → Except Refusal (Option ℤ) := optionalInt 1 " must be positive."

/-- The amount that `_optional_decimal` finds in a value. -/
def amountOf : Json → Option Decimal
  | .bool _ => none
  | value => (decimalOf value).bind fun x =>
    match x with
    | .finite d => some d
    | .special => none

/-- `_optional_decimal`. -/
def optionalDecimal (value : Json) (name : String) : Except Refusal (Option Decimal) :=
  if value.isBlank then .ok none
  else do return some (← found (amountOf value) (.response (name ++ " must be numeric.")))

/-- `_required_decimal`. -/
def requiredDecimal (value : Json) (name : String) : Except Refusal Decimal := do
  found (← optionalDecimal value name) (.response (name ++ " is required."))

/-- `_optional_string`. -/
def optionalString : Json → String
  | .str text => Text.strip text
  | _ => ""

/-- `_required_string`. -/
def requiredString (value : Json) (name : String) : Except Refusal String := do
  raiseIf (optionalString value = "") (.response (name ++ " is required."))
  return optionalString value

/-! ### Calendars -/

/-- `CalendarDay`. -/
structure CalendarDay where
  date : ℕ
  isAvailable : Option Bool
  price : Option Decimal
  minimumStay : Option ℤ
  maximumStay : Option ℤ
  closedOnArrival : Option Bool
  closedOnDeparture : Option Bool
  countAvailableUnits : Option ℤ
  availableUnitsToSell : Option ℤ
  countReservedUnits : Option ℤ
  countPendingUnits : Option ℤ
  countBlockedUnits : Option ℤ
  countBlockingReservations : Option ℤ
  desiredUnitsToSell : Option ℤ
  isProcessed : Option Bool
  status : String
deriving DecidableEq

/-- What the rules of a stay read of the day. -/
def CalendarDay.rules (day : CalendarDay) : Availability.CalendarDay where
  date := day.date
  isAvailable := day.isAvailable
  minimumStay := day.minimumStay
  maximumStay := day.maximumStay
  closedOnArrival := day.closedOnArrival
  closedOnDeparture := day.closedOnDeparture
  countAvailableUnits := day.countAvailableUnits
  availableUnitsToSell := day.availableUnitsToSell
  countReservedUnits := day.countReservedUnits
  countBlockedUnits := day.countBlockedUnits
  desiredUnitsToSell := day.desiredUnitsToSell

def rowName (index : ℕ) (key : String) : String := "result[" ++ toString index ++ "]." ++ key

/-- The day of a row, once its date is read. -/
def readFields (index : ℕ) (item : Json) (date : ℕ) : Except Refusal CalendarDay := do
  let flag := fun key => optionalBool (field item key) (rowName index key)
  let rule := fun key => optionalPositiveInt (field item key) (rowName index key)
  let count := fun key => optionalNonnegativeInt (field item key) (rowName index key)
  let isAvailable ← flag "isAvailable"
  let price ← optionalDecimal (field item "price") (rowName index "price")
  let minimumStay ← rule "minimumStay"
  let maximumStay ← rule "maximumStay"
  let closedOnArrival ← flag "closedOnArrival"
  let closedOnDeparture ← flag "closedOnDeparture"
  let countAvailableUnits ← count "countAvailableUnits"
  let availableUnitsToSell ←
    optionalNonnegativeInt (firstPresent item "availableUnitsToSell" "availableUnits") (rowName index "availableUnitsToSell")
  let countReservedUnits ← count "countReservedUnits"
  let countPendingUnits ← count "countPendingUnits"
  let countBlockedUnits ← count "countBlockedUnits"
  let countBlockingReservations ← count "countBlockingReservations"
  let desiredUnitsToSell ← count "desiredUnitsToSell"
  let isProcessed ← flag "isProcessed"
  return {
    date
    isAvailable
    price
    minimumStay
    maximumStay
    closedOnArrival
    closedOnDeparture
    countAvailableUnits
    availableUnitsToSell
    countReservedUnits
    countPendingUnits
    countBlockedUnits
    countBlockingReservations
    desiredUnitsToSell
    isProcessed
    status := optionalString (field item "status") }

/-- A round of the loop over the rows; `seen` are the dates before. -/
def readDay (lib : Library) (index : ℕ) (seen : List ℕ) (item : Json) : Except Refusal CalendarDay := do
  raiseIf (item.isObject = false) (.response ("Hostaway calendar day " ++ toString index ++ " must be an object."))
  let date ← readDate lib (field item "date") (rowName index "date")
  raiseIf (date ∈ seen) (.response "Hostaway calendar contains duplicate dates.")
  readFields index item date

/-- The loop from the row with this index. -/
def readDays (lib : Library) : ℕ → List ℕ → List Json → Except Refusal (List CalendarDay)
  | _, _, [] => .ok []
  | index, seen, item :: items => do
    let day ← readDay lib index seen item
    return day :: (← readDays lib (index + 1) (day.date :: seen) items)

/-- The status of a document that reports no failure. -/
def succeeded (payload : Json) : Bool :=
  match field payload "status" with
  | .null => true
  | .str text => text == "success"
  | _ => false

/-- `validate_calendar_response`. -/
def validateCalendarResponse (lib : Library) (payload : Json) : Except Refusal (List CalendarDay) := do
  raiseIf (payload.isObject = false ∨ succeeded payload = false) (.response "Hostaway calendar response reports a failure.")
  match field payload "result" with
  | .arr items => readDays lib 0 [] items
  | _ => .error (.response "Hostaway calendar result must be an array.")

/-! ### Prices -/

/-- `PriceComponent`. -/
structure PriceComponent where
  listingFeeSettingId : Option ℤ
  type : String
  name : String
  title : String
  aliasName : String
  quantity : Option ℤ
  value : Decimal
  total : Option Decimal
  isIncludedInTotal : Option Bool
  isOverriddenByUser : Option Bool
  isMandatory : Option Bool
  isDeleted : Option Bool
deriving DecidableEq

/-- `PriceQuote`. -/
structure PriceQuote where
  listingId : ℤ
  checkIn : ℤ
  checkOut : ℤ
  nights : ℤ
  guests : ℕ
  currency : String
  totalPrice : Decimal
  components : List PriceComponent
  calculatedAt : Time
deriving DecidableEq

def componentName (index : ℕ) (key : String) : String := "components[" ++ toString index ++ "]." ++ key

/-- A round of the loop over the components. -/
def readComponent (index : ℕ) (item : Json) : Except Refusal PriceComponent := do
  let name := componentName index
  raiseIf (item.isObject = false) (.response ("Hostaway price component " ++ toString index ++ " must be an object."))
  let listingFeeSettingId ← optionalNonnegativeInt (field item "listingFeeSettingId") (name "listingFeeSettingId")
  let type ← requiredString (field item "type") (name "type")
  let label ← requiredString (field item "name") (name "name")
  let quantity ← optionalNonnegativeInt (field item "quantity") (name "quantity")
  let value ← requiredDecimal (field item "value") (name "value")
  let total ← requiredDecimal (field item "total") (name "total")
  let isIncludedInTotal ← requiredBool (field item "isIncludedInTotalPrice") (name "isIncludedInTotalPrice")
  let isOverriddenByUser ← optionalBool (field item "isOverriddenByUser") (name "isOverriddenByUser")
  let isMandatory ← optionalBool (field item "isMandatory") (name "isMandatory")
  let isDeleted ← requiredBool (field item "isDeleted") (name "isDeleted")
  return {
    listingFeeSettingId
    type
    name := label
    title := optionalString (field item "title")
    aliasName := optionalString (field item "alias")
    quantity
    value
    total := some total
    isIncludedInTotal := some isIncludedInTotal
    isOverriddenByUser
    isMandatory
    isDeleted := some isDeleted }

/-- The loop from the component with this index. -/
def readComponents : ℕ → List Json → Except Refusal (List PriceComponent)
  | _, [] => .ok []
  | index, item :: items => do
    let component ← readComponent index item
    return component :: (← readComponents (index + 1) items)

def priceComponents : Json → Except Refusal (List PriceComponent)
  | .arr items => readComponents 0 items
  | _ => .error (.response "Hostaway price components must be an array.")

/-- `bool(value)`. -/
def truthy : Json → Bool
  | .null => false
  | .bool b => b
  | .int n => n != 0
  | .float text trunc => !isNumber 0 (.float text trunc)
  | .str text => text != ""
  | .arr items => !items.isEmpty
  | .obj fields => !fields.isEmpty

/-- `a or b`. -/
def orElse (a b : Json) : Json := if truthy a then a else b

/-- `_currency`. -/
def readCurrency (value : Json) : Except Refusal String :=
  let parsed := Text.upper (optionalString value)
  if parsed = "" then .ok ""
  else if parsed.length ≠ 3 ∨ parsed.toList.all Char.isAlpha = false then
    .error (.response "Hostaway currency must be a three-letter code.")
  else .ok parsed

/-- `_supported_currency`. -/
def supportedCurrency (lib : Library) (value : Json) (source : String) : Except Refusal String := do
  let currency ← readCurrency value
  raiseIf (currency ≠ "" ∧ currency ∉ lib.supportedCurrencies) (.response ("Hostaway " ++ source ++ " currency is unsupported."))
  return currency

def invalidListingId : Refusal := .response "Hostaway listing response has an invalid listing ID."

/-- `_listing_id`; the text of a float never is that of an integer. -/
def readListingId (value : Json) : Except Refusal ℤ :=
  match value with
  | .int n => if 0 < n then .ok n else .error invalidListingId
  | .str text =>
    match Webhooks.parseInt text with
    | some n => if toString n = Text.strip text ∧ 0 < n then .ok n else .error invalidListingId
    | none => .error invalidListingId
  | .float text _ => .error (if text = "inf" ∨ text = "-inf" then .other "OverflowError" else invalidListingId)
  | _ => .error invalidListingId

/-- The record in a listing response: that in its envelope, or the response itself. -/
def listingRecord (response : Json) : Json :=
  if (field response "result").isObject then field response "result" else response

/-- The currency that a listing response names. -/
def listingCurrency (lib : Library) (listingId : ℤ) (response : Json) : Except Refusal String := do
  raiseIf ((listingRecord response).isObject = false) (.response "Hostaway listing response must be an object.")
  let id ← readListingId (field (listingRecord response) "id")
  raiseIf (id ≠ listingId) (.response "Hostaway listing currency is bound to a different listing ID.")
  supportedCurrency lib (field (listingRecord response) "currencyCode") "listing"

/-- `resolve_hostaway_price_currency`; no override is the empty text. -/
def resolveCurrency (lib : Library) (listingId : ℤ) (price : Json) (listing : Option Json) (override : String) :
    Except Refusal String := do
  raiseIf (listingId ≤ 0) (.response "Hostaway listing ID must be a positive integer.")
  raiseIf (price.isObject = false) (.response "Hostaway price response must be an object.")
  raiseIf ((field price "result").isObject = false) (.response "Hostaway price result must be an object.")
  let result := field price "result"
  let priceCurrency ← supportedCurrency lib (orElse (field result "currency") (field result "currencyCode")) "priceDetails"
  let overrideCurrency ← supportedCurrency lib (.str override) "local override"
  let listingCurrency ← listing.elim (.ok "") (listingCurrency lib listingId)
  raiseIf (priceCurrency ≠ "" ∧ listingCurrency ≠ "" ∧ priceCurrency ≠ listingCurrency)
    (.response "Hostaway price and listing currencies conflict.")
  if overrideCurrency ≠ "" then return overrideCurrency
  if priceCurrency ≠ "" then return priceCurrency
  raiseIf (listingCurrency = "") (.response "Hostaway price response does not identify a currency.")
  return listingCurrency

/-- What a price is asked for. -/
structure Stay where
  listingId : ℤ
  checkIn : ℤ
  checkOut : ℤ
  guests : ℕ
deriving DecidableEq

/-- `validate_price_response`. -/
def validatePriceResponse (lib : Library) (stay : Stay) (payload : Json) (listing : Option Json) (override : String)
    (now : Time) : Except Refusal PriceQuote := do
  raiseIf (payload.isObject = false) (.response "Hostaway price response must be an object.")
  raiseIf (succeeded payload = false)
    (.availability "Hostaway could not calculate this stay under the current restrictions.")
  let result := field payload "result"
  raiseIf (result.isObject = false) (.response "Hostaway price result must be an object.")
  let totalPrice ← requiredDecimal (field result "totalPrice") "result.totalPrice"
  raiseIf (totalPrice.value < 0) (.response "Hostaway totalPrice cannot be negative.")
  let components ← priceComponents (field result "components")
  let currency ← resolveCurrency lib stay.listingId payload listing override
  return {
    listingId := stay.listingId
    checkIn := stay.checkIn
    checkOut := stay.checkOut
    nights := stay.checkOut - stay.checkIn
    guests := stay.guests
    currency
    totalPrice
    components
    calculatedAt := now }

/-- `get_listing_currency_record`; a record that is cached may be any object. -/
def currencyRecord (cached : Option Json) (listing : Json) : Json :=
  match cached.filter (·.isObject) with
  | some record => record
  | none => .obj [("id", field listing "id"), ("currencyCode", field listing "currencyCode")]

/-- `calculate_price`, from the body of the price on; `listing` is the listing that is read where no record is cached. -/
def calculatePrice (lib : Library) (stay : Stay) (payload : Json) (cached : Option Json) (listing : Json) (override : String)
    (now : Time) : Except Refusal PriceQuote :=
  validatePriceResponse lib stay payload (some (currencyRecord cached listing)) override now

end Apartments.Responses
