import Apartments.Hostaway.CreateCalls
import Apartments.Reservations.Expiration

/-!
# Manual booking drafts (`reservations/manual_bookings.py`)

The rows of a manual draft: its quotes, the booking intents made from it and the draft itself, with what one transaction
of `recheck_manual_booking_draft`, `finalize_manual_booking_draft`, `create_manual_booking_in_hostaway` and the
`confirm` of `sama_booking_api.py` does to them. A keyed hash is kept as the values it is taken of. The answers of the
availability service and of the currency service are given to a transaction, as are the verdicts of the field validators.
-/

namespace Apartments.ManualBookings

open Hostaway
open Expiration (QuoteStatus IntentStatus)

/-- The payload that `quote_fingerprint` signs. -/
structure QuoteFingerprint where
  quote : Uuid
  property : ℕ
  hostawayListingId : ℕ
  checkIn : ℕ
  checkOut : ℕ
  guests : ℕ
  currency : String
  totalPrice : Dec
  priceVersion : ℕ
  /-- Payment amount, display currency and exchange rates, which legacy quotes are signed without. -/
  payment : Option (Option Dec × String × String)
  nightPrices : Option String
deriving DecidableEq

/-- A row of `BookingQuote`; an empty JSON object is the empty text. -/
structure BookingQuote where
  pk : Uuid
  property : ℕ
  hostawayListingId : ℕ
  checkIn : ℕ
  checkOut : ℕ
  nights : ℕ
  guests : ℕ
  currency : String
  totalPrice : Dec
  paymentAmountSar : Option Dec
  selectedDisplayCurrency : String
  exchangeRateSnapshot : String
  nightPrices : String
  priceVersion : ℕ
  signature : QuoteFingerprint
  sessionKeyHash : String
  status : QuoteStatus
  expiresAt : Time
  calculatedAt : Time
  consumedAt : Option Time
  invalidatedAt : Option Time
deriving DecidableEq

/-- `quote_fingerprint`. -/
def quoteFingerprint (q : BookingQuote) : QuoteFingerprint where
  quote := q.pk
  property := q.property
  hostawayListingId := q.hostawayListingId
  checkIn := q.checkIn
  checkOut := q.checkOut
  guests := q.guests
  currency := q.currency
  totalPrice := q.totalPrice
  priceVersion := q.priceVersion
  payment :=
    if q.paymentAmountSar.isSome || q.exchangeRateSnapshot != "" then
      some (q.paymentAmountSar, q.selectedDisplayCurrency, q.exchangeRateSnapshot)
    else none
  nightPrices := if q.nightPrices = "" then none else some q.nightPrices

def verifyQuoteFingerprint (q : BookingQuote) : Bool := q.signature == quoteFingerprint q

inductive DraftStatus
  | quoted | readyForPayment | bookedAwaitingPayment | expired | cancelled
deriving DecidableEq, Repr

inductive PriceSource
  | system | manualOverride
deriving DecidableEq, Repr

/-- A row of `ManualBookingDraft`. -/
structure ManualBookingDraft where
  pk : Uuid
  samaRequestId : Option Uuid
  samaConfirmationStartedAt : Option Time
  quote : Uuid
  property : Property
  checkIn : ℕ
  checkOut : ℕ
  nights : ℕ
  guests : ℕ
  currency : String
  systemTotalPrice : Dec
  finalTotalPrice : Dec
  paymentAmountSar : Option Dec
  selectedDisplayCurrency : String
  exchangeRateSnapshot : String
  priceSource : PriceSource
  guestFirstName : String
  guestLastName : String
  guestEmail : String
  guestPhone : String
  guestLanguage : String
  status : DraftStatus
  availabilityCheckedAt : Time
  expiresAt : Time
deriving DecidableEq

/-- A row of `BookingIntent` as a manual draft makes it. -/
structure BookingIntent where
  pk : Uuid
  quote : Uuid
  property : Property
  checkIn : ℕ
  checkOut : ℕ
  nights : ℕ
  guests : ℕ
  currency : String
  totalPrice : Dec
  paymentAmountSar : Option Dec
  selectedDisplayCurrency : String
  exchangeRateSnapshot : String
  guestFirstName : String
  guestLastName : String
  guestEmail : String
  guestPhone : String
  guestCountryCode : String
  language : String
  status : IntentStatus
  /-- `salted_hmac(salt, value)`, as the salt and the value. -/
  idempotencyKey : String × String
  sessionKeyHash : String
  expiresAt : Time
deriving DecidableEq

/-- `CurrencyQuote`, the answer of the currency service. -/
structure CurrencyQuote where
  paymentAmountSar : Dec
  displayCurrency : String
  snapshot : String
deriving DecidableEq

/-- What makes a booked stay: its dates, its guests and its price. -/
structure Stay where
  checkIn : ℕ
  checkOut : ℕ
  guests : ℕ
  totalPrice : Dec
deriving DecidableEq

def ManualBookingDraft.stay (d : ManualBookingDraft) : Stay := ⟨d.checkIn, d.checkOut, d.guests, d.finalTotalPrice⟩

def BookingIntent.stay (i : BookingIntent) : Stay := ⟨i.checkIn, i.checkOut, i.guests, i.totalPrice⟩

/-- What `build_hostaway_reservation_request` copies from the reservation it is given. -/
def stayOf (r : Reservation) : Stay := ⟨r.checkIn, r.checkOut, r.guests, r.totalPrice⟩

/-! ### A new quote -/

/-- `sanitized_components`. -/
def sanitizedComponents (price : PriceQuote) : List PriceComponent :=
  let included := price.components.filter fun c => c.isIncludedInTotal == some true && c.isDeleted == some false
  if included.any (·.total.isNone) then []
  else if (included.map fun c => c.total.getD 0).sum ≠ price.totalPrice then []
  else included

/-- What a recheck is given: the answer of the availability service and how many decimals its price is written with, the
answer of the currency service (`none` is a `CurrencyError`), the captured calendar, whether `quote.clean()` passes and
whether the draft passes the field validators of `full_clean`. -/
structure Offer where
  availability : AvailabilityResult
  places : ℕ
  currency : Option CurrencyQuote
  nightPrices : String
  pk : Uuid
  sessionHash : String
  now : Time
  expiresAt : Time
  quoteClean : Bool
  fieldsValid : Bool
deriving DecidableEq

/-- How a transaction ends that does not commit. -/
inductive Failure
  /-- `CurrencyError` and `ValueError`, which `recheck_manual_booking_draft` catches. -/
  | valueError
  | validationError
  | integrityError
deriving DecidableEq, Repr

/-- The quote of an offer, before it is signed. -/
def unsignedQuote (property : Property) (price : PriceQuote) (currency : CurrencyQuote) (o : Offer) : BookingQuote where
  pk := o.pk
  property := property.pk
  hostawayListingId := price.listingId
  checkIn := price.checkIn
  checkOut := price.checkOut
  nights := price.checkOut - price.checkIn
  guests := price.guests
  currency := price.currency
  totalPrice := price.totalPrice
  paymentAmountSar := some currency.paymentAmountSar
  selectedDisplayCurrency := currency.displayCurrency
  exchangeRateSnapshot := currency.snapshot
  nightPrices := o.nightPrices
  priceVersion := 2
  signature := ⟨o.pk, 0, 0, 0, 0, 0, "", 0, 0, none, none⟩
  sessionKeyHash := o.sessionHash
  status := .active
  expiresAt := o.expiresAt
  calculatedAt := o.now
  consumedAt := none
  invalidatedAt := none

/-- `create_quote_for_property`. -/
def createQuoteForProperty (property : Property) (o : Offer) : Except Failure BookingQuote :=
  match o.availability.isAvailable, o.availability.quote with
  | true, some price =>
    if some price.listingId ≠ property.hostawayListingId then .error .valueError
    else if price.totalPrice < 0 ∨ 4 < o.places then .error .valueError
    else if 100 < (sanitizedComponents price).length then .error .valueError
    else
      match o.currency with
      | none => .error .valueError
      | some currency =>
        let q := unsignedQuote property price currency o
        if o.quoteClean then .ok { q with signature := quoteFingerprint q } else .error .validationError
  | _, _ => .error .valueError

/-! ### The checks of a draft -/

/-- The currency is a three-letter code. -/
def threeLetters (currency : String) : Bool :=
  currency == "" || currency.length == 3 && currency.toList.all Char.isAlpha

/-- `ManualBookingDraft.clean` with the quote the draft points to. -/
def ManualBookingDraft.clean (supported : List String) (d : ManualBookingDraft) (q : BookingQuote) : Bool :=
  q.property == d.property.pk && d.checkIn == q.checkIn && d.checkOut == q.checkOut && d.nights == q.nights &&
    d.guests == q.guests && d.currency == q.currency && d.systemTotalPrice == q.totalPrice &&
    decide (d.checkIn < d.checkOut) && d.nights == d.checkOut - d.checkIn && threeLetters d.currency &&
    (d.selectedDisplayCurrency == "" || supported.contains d.selectedDisplayCurrency) &&
    (if d.finalTotalPrice = d.systemTotalPrice then d.priceSource == .system else d.priceSource == .manualOverride) &&
    (d.status != .readyForPayment ||
      [d.guestFirstName, d.guestLastName, d.guestEmail, d.guestPhone].all fun text => Text.strip text != "")

/-! ### The transactions -/

/-- A draft that is neither cancelled nor booked can be rechecked. -/
def recheckable (d : ManualBookingDraft) : Bool := d.status != .cancelled && d.status != .bookedAwaitingPayment

/-- The draft with the quote that replaces its own. -/
def requoted (d : ManualBookingDraft) (q : BookingQuote) (now : Time) : ManualBookingDraft :=
  { d with
    quote := q.pk
    currency := q.currency
    systemTotalPrice := q.totalPrice
    finalTotalPrice := q.totalPrice
    paymentAmountSar := q.paymentAmountSar
    selectedDisplayCurrency := q.selectedDisplayCurrency
    exchangeRateSnapshot := q.exchangeRateSnapshot
    priceSource := .system
    status := .quoted
    availabilityCheckedAt := now
    expiresAt := q.expiresAt }

/-- The quote the transaction of a recheck puts in place of the draft's, if it commits one. -/
def replacement (supported : List String) (d : ManualBookingDraft) (quotes : List BookingQuote) (o : Offer) :
    Except Failure BookingQuote := do
  let q ← createQuoteForProperty d.property o
  if quotes.any (·.pk == q.pk) then .error .integrityError
  else if o.fieldsValid && (requoted d q o.now).clean supported q then .ok q
  else .error .validationError

/-- The quote still stands for a booking: active, not expired and as it was signed. -/
def usable (now : Time) (quote : Option BookingQuote) : Bool :=
  quote.any fun q => q.status == .active && decide (now < q.expiresAt) && verifyQuoteFingerprint q

/-- `guest_data`, and whether the draft with it passes the field validators of `full_clean`. -/
structure GuestData where
  firstName : String
  lastName : String
  email : String
  phone : String
  language : String
  fieldsValid : Bool
deriving DecidableEq

/-- The draft that `finalize_manual_booking_draft` saves. -/
def finalized (guest : GuestData) (total : Dec) (q : BookingQuote) (manual : Option CurrencyQuote)
    (d : ManualBookingDraft) : ManualBookingDraft :=
  { d with
    guestFirstName := guest.firstName
    guestLastName := guest.lastName
    guestEmail := guest.email
    guestPhone := guest.phone
    guestLanguage := if guest.language = "" then "ar" else guest.language
    finalTotalPrice := total
    paymentAmountSar := manual.elim q.paymentAmountSar fun c => some c.paymentAmountSar
    selectedDisplayCurrency := manual.elim q.selectedDisplayCurrency (·.displayCurrency)
    exchangeRateSnapshot := manual.elim q.exchangeRateSnapshot (·.snapshot)
    priceSource := if manual.isSome then .manualOverride else .system
    status := .readyForPayment }

/-- `finalize_manual_booking_draft` on a draft that exists: its code and the draft it leaves, or the exception that rolls
it back. -/
def finalize (supported : List String) (quotes : List BookingQuote) (guest : GuestData) (finalTotalPrice : Dec)
    (currency : Option CurrencyQuote) (now : Time) (d : ManualBookingDraft) :
    Except Failure (String × ManualBookingDraft) :=
  if d.status ≠ .quoted then .ok ("not_editable", d)
  else
    match (Table.get BookingQuote.pk quotes d.quote).filter fun q => usable now (some q) with
    | none => .ok ("quote_expired", { d with status := .expired })
    | some q =>
      let total := Dec.quantizeEven 2 finalTotalPrice
      -- only a price of the owner's own asks the currency service
      let manual := if total ≠ d.systemTotalPrice then currency else none
      if total ≠ d.systemTotalPrice ∧ currency = none then .ok ("currency_unavailable", d)
      else if guest.fieldsValid && (finalized guest total q manual d).clean supported q then
        .ok ("ready_for_payment", finalized guest total q manual d)
      else .error .validationError

/-- What `confirm` is given. -/
structure Confirmation where
  request : Uuid
  guest : GuestData
  acceptedTotal : String
  currency : String
  formValid : Bool
deriving DecidableEq

/-- The transaction of Sama's `confirm`: its code and the draft it leaves. -/
def confirm (supported : List String) (quotes : List BookingQuote) (c : Confirmation) (currency : Option CurrencyQuote)
    (now : Time) (d : ManualBookingDraft) : Except Failure (String × ManualBookingDraft) :=
  let total := Dec.fixed 2 (Dec.quantizeEven 2 d.systemTotalPrice)
  if d.samaRequestId ≠ some c.request then .ok ("not_found", d)
  else if d.status = .bookedAwaitingPayment then .ok ("booked_awaiting_payment", d)
  else if d.samaConfirmationStartedAt.isSome then .ok ("review_required", d)
  else if c.currency ≠ d.currency ∨ c.acceptedTotal ≠ total then .ok ("price_confirmation_required", d)
  else if !c.formValid then .ok ("invalid_guest_details", d)
  else do
    let (code, d') ← finalize supported quotes c.guest (Dec.quantizeEven 2 d.systemTotalPrice) currency now d
    if code = "ready_for_payment" then .ok ("confirmed", { d' with samaConfirmationStartedAt := some now })
    else .ok (code, d')

/-- `_manual_intent_idempotency_key`. -/
def manualIntentIdempotencyKey (d : ManualBookingDraft) : String × String := ("manual-booking-intent.v1", d.pk.str)

/-- What the preparation of a create draws or asks for: the key of the new intent, the country of the guest's phone, the
key of the new reservation, and whether the two rows pass `full_clean`. -/
structure Drawn where
  intent : Uuid
  countryCode : String
  reservation : Uuid
  intentClean : Bool
  reservationClean : Bool
deriving DecidableEq

/-- The intent that the preparation makes from the draft. -/
def newIntent (d : ManualBookingDraft) (q : BookingQuote) (n : Drawn) : BookingIntent where
  pk := n.intent
  quote := q.pk
  property := d.property
  checkIn := d.checkIn
  checkOut := d.checkOut
  nights := d.nights
  guests := d.guests
  currency := d.currency
  totalPrice := d.finalTotalPrice
  paymentAmountSar := d.paymentAmountSar
  selectedDisplayCurrency := d.selectedDisplayCurrency
  exchangeRateSnapshot := d.exchangeRateSnapshot
  guestFirstName := d.guestFirstName
  guestLastName := d.guestLastName
  guestEmail := d.guestEmail
  guestPhone := d.guestPhone
  guestCountryCode := n.countryCode
  language := if d.guestLanguage = "" then "ar" else d.guestLanguage
  status := .awaitingPayment
  idempotencyKey := manualIntentIdempotencyKey d
  sessionKeyHash := q.sessionKeyHash
  -- midnight of the check-in day
  expiresAt := d.checkIn

/-- The reservation that `prepare_local_reservation` makes of an intent. -/
def newReservation (pk : Uuid) (i : BookingIntent) : Reservation where
  pk := pk
  isTest := false
  bookingIntent := some i.pk
  property := some i.property
  hostawayReservationId := none
  hostawayListingMapId := i.property.hostawayListingMapId
  channelId := none
  sourceType := .directWebsite
  normalizedStatus := .awaitingPayment
  hostawayStatus := ""
  paymentStatus := ""
  checkIn := i.checkIn
  checkOut := i.checkOut
  guests := i.guests
  currency := i.currency.toUpper
  totalPrice := i.totalPrice
  sourceUpdatedAt := none
  lastSyncedAt := none
  confirmedAt := none
  cancelledAt := none
  pointsConfirmationStarted := false
  hold := false

/-- The insertion of an intent violates a unique column. -/
def intentTaken (intents : List BookingIntent) (i : BookingIntent) : Bool :=
  intents.any fun j => j.pk == i.pk || j.quote == i.quote || j.idempotencyKey == i.idempotencyKey

/-- How the preparing transaction of `create_manual_booking_in_hostaway` ends. -/
inductive Preparation
  | returned (code : String) (status : DraftStatus)
  | found (intent : BookingIntent)
  | inserted (intent : BookingIntent)
deriving DecidableEq

/-- The preparing transaction up to its intent. -/
def prepare (d : ManualBookingDraft) (quotes : List BookingQuote) (intents : List BookingIntent) (n : Drawn) (now : Time) :
    Except Failure Preparation :=
  if d.status = .bookedAwaitingPayment then .ok (.returned "already_created" d.status)
  else if d.status ≠ .readyForPayment then .ok (.returned "not_ready" d.status)
  else
    match (Table.get BookingQuote.pk quotes d.quote).filter fun q => usable now (some q) with
    | none => .ok (.returned "quote_expired" .expired)
    | some q =>
      match intents.find? fun i => i.quote == d.quote with
      | some i => if i.status = .awaitingPayment then .ok (.found i) else .error .valueError
      | none =>
        -- uniqueness is left to the database
        if !n.intentClean then .error .validationError
        else if intentTaken intents (newIntent d q n) then .error .integrityError
        else .ok (.inserted (newIntent d q n))

/-- The codes of a create call after which the draft counts as booked. -/
def bookedCodes : List String := ["confirmed", "awaiting_payment", "already_confirmed"]

end Apartments.ManualBookings
