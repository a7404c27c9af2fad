import Apartments.Lib.Run
import Apartments.Lib.Table
import Apartments.Payments.Currency
import Apartments.Reservations.ManualDrafts

/-!
# Website quotes (`reservations/services/booking.py`)

`create_quote_for_property` and the two parts of `consume_revalidated_quote`: the lookup without a lock and the transaction
under the lock of the quote. A transaction is given what it draws and what it is answered: the time, the keys of new rows,
the rates it finds, the verdicts of the field validators. A keyed hash is kept as the values it is taken of. The expiry
sweep and the checkout view write the status of a quote without reading it.
-/

namespace Apartments.Quotes

open Expiration (QuoteStatus IntentStatus)

structure Property where
  pk : ℕ
  hostawayListingId : Option ℕ
  personCapacity : Option ℕ
deriving DecidableEq

/-- `PriceQuote`. -/
structure PriceQuote where
  listingId : ℕ
  checkIn : ℕ
  checkOut : ℕ
  nights : ℕ
  guests : ℕ
  currency : String
  totalPrice : Decimal
  components : List Hostaway.PriceComponent
  calculatedAt : Time
deriving DecidableEq

structure AvailabilityResult where
  isAvailable : Bool
  quote : Option PriceQuote
deriving DecidableEq

/-- The payload that `quote_fingerprint` signs. -/
structure QuoteFingerprint where
  quote : Uuid
  property : ℕ
  hostawayListingId : ℕ
  checkIn : ℕ
  checkOut : ℕ
  guests : ℕ
  currency : String
  totalPrice : Dec
  priceVersion : ℕ
  /-- Payment amount, display currency and exchange rates, which legacy quotes are signed without. -/
  payment : Option (Option Dec × String × Option Fx.AuditSnapshot)
  nightPrices : Option String
deriving DecidableEq

/-- A row of `BookingQuote`; an empty JSON object is `none` or the empty text. -/
structure BookingQuote where
  pk : Uuid
  property : Property
  hostawayListingId : ℕ
  checkIn : ℕ
  checkOut : ℕ
  nights : ℕ
  guests : ℕ
  currency : String
  totalPrice : Dec
  paymentAmountSar : Option Dec
  selectedDisplayCurrency : String
  exchangeRateSnapshot : Option Fx.AuditSnapshot
  nightPrices : String
  priceVersion : ℕ
  signature : Option QuoteFingerprint
  sessionKeyHash : String
  status : QuoteStatus
  expiresAt : Time
  calculatedAt : Time
  consumedAt : Option Time
  invalidatedAt : Option Time
deriving DecidableEq

/-- `quote_fingerprint`. -/
def quoteFingerprint (q : BookingQuote) : QuoteFingerprint where
  quote := q.pk
  property := q.property.pk
  hostawayListingId := q.hostawayListingId
  checkIn := q.checkIn
  checkOut := q.checkOut
  guests := q.guests
  currency := q.currency
  totalPrice := q.totalPrice
  priceVersion := q.priceVersion
  payment :=
    if q.paymentAmountSar.isSome || q.exchangeRateSnapshot.isSome then
      some (q.paymentAmountSar, q.selectedDisplayCurrency, q.exchangeRateSnapshot)
    else none
  nightPrices := if q.nightPrices = "" then none else some q.nightPrices

def verifyQuoteFingerprint (q : BookingQuote) : Bool := q.signature == some (quoteFingerprint q)

/-- The guest details of an intent. -/
structure GuestData where
  guestFirstName : String
  guestLastName : String
  guestEmail : String
  guestPhone : String
  guestCountryCode : String
  billingStreet1 : String
  billingCity : String
  billingState : String
  billingCountry : String
  billingPostcode : String
  language : String
  specialRequests : String
  houseRulesAccepted : Bool
  legalAcceptance : String
  marketingConsent : Bool
deriving DecidableEq

/-- A row of `BookingIntent`. -/
structure BookingIntent where
  pk : Uuid
  publicReference : String
  quote : Uuid
  property : Property
  checkIn : ℕ
  checkOut : ℕ
  nights : ℕ
  guests : ℕ
  currency : String
  totalPrice : Dec
  paymentAmountSar : Dec
  selectedDisplayCurrency : String
  exchangeRateSnapshot : Fx.AuditSnapshot
  guest : GuestData
  status : IntentStatus
  idempotencyKey : String
  sessionKeyHash : String
  acceptedAt : Time
  expiresAt : Time
deriving DecidableEq

/-- `BOOKING_QUOTE_TTL_SECONDS`, `BOOKING_INTENT_TTL_SECONDS`, `BOOKING_PRICE_TOLERANCE` and `FX_PROVIDER_NAME`. -/
structure Settings where
  quoteTtl : ℕ
  intentTtl : ℕ
  priceTolerance : Dec
  fxProviderName : String

/-- How a transaction ends that rolls back. -/
inductive Failure
  | valueError (text : String)
  | validationError
  | database
  | fx (failure : Fx.Failure)
  | doesNotExist
deriving DecidableEq

/-! ### A new quote -/

/-- `sanitized_components`. -/
def sanitizedComponents (price : PriceQuote) : List Hostaway.PriceComponent :=
  ManualBookings.sanitizedComponents
    ⟨price.listingId, price.checkIn, price.checkOut, price.guests, price.currency, price.totalPrice.value,
      price.components⟩

/-- What the creation of a quote draws and is answered; `stored` says that the database takes the row. -/
structure Drawn where
  pk : Uuid
  now : Time
  rates : Fx.Found
  nightPrices : String
  stored : Bool
deriving DecidableEq

/-- The quote before it is signed. -/
def unsignedQuote (settings : Settings) (property : Property) (price : PriceQuote) (currency : Fx.CurrencyQuote)
    (sessionHash : String) (d : Drawn) : BookingQuote where
  pk := d.pk
  property := property
  hostawayListingId := price.listingId
  checkIn := price.checkIn
  checkOut := price.checkOut
  nights := price.nights
  guests := price.guests
  currency := price.currency
  totalPrice := price.totalPrice.value
  paymentAmountSar := some currency.paymentAmountSar.value
  selectedDisplayCurrency := currency.displayCurrency.code
  exchangeRateSnapshot := some currency.snapshot
  nightPrices := d.nightPrices
  priceVersion := 2
  signature := none
  sessionKeyHash := sessionHash
  status := .active
  expiresAt := d.now + settings.quoteTtl
  calculatedAt := price.calculatedAt
  consumedAt := none
  invalidatedAt := none

def supportedCode (code : String) : Bool := Fx.supported.any fun c => c.code == code

/-- `BookingQuote.clean`. -/
def BookingQuote.clean (q : BookingQuote) : Bool :=
  q.property.hostawayListingId == some q.hostawayListingId &&
    q.property.personCapacity.all (fun capacity => capacity == 0 || decide (q.guests ≤ capacity)) &&
    decide (q.checkIn < q.checkOut) && q.nights == q.checkOut - q.checkIn && ManualBookings.threeLetters q.currency &&
    (q.selectedDisplayCurrency == "" || supportedCode q.selectedDisplayCurrency) && q.priceVersion == 2

/-- `create_quote_for_property`; a `CurrencyError` becomes a `ValueError`. -/
def createQuoteForProperty (settings : Settings) (availability : AvailabilityResult) (property : Property)
    (sessionHash selectedDisplayCurrency : String) (d : Drawn) : Except Failure BookingQuote :=
  match availability.isAvailable, availability.quote with
  | true, some price =>
    if some price.listingId ≠ property.hostawayListingId then
      .error (.valueError "Quote listing does not match the local property.")
    else if price.totalPrice.value < 0 ∨ price.totalPrice.exponent < -4 then
      .error (.valueError "Price total has an unsupported precision.")
    else if 100 < (sanitizedComponents price).length then
      .error (.valueError "Price component count exceeds the safe limit.")
    else
      match Fx.createQuote (Fx.getRates settings.fxProviderName d.rates) price.totalPrice price.currency
          selectedDisplayCurrency d.now (d.now + settings.quoteTtl) with
      | .error (.currency _) => .error (.valueError "currency_conversion_unavailable")
      | .error failure => .error (.fx failure)
      | .ok currency =>
        let unsigned := unsignedQuote settings property price currency sessionHash d
        let q := { unsigned with signature := some (quoteFingerprint unsigned) }
        if !q.clean then .error .validationError else if d.stored then .ok q else .error .database
  | _, _ => .error (.valueError "A quote requires verified availability and price.")

/-! ### Consuming a quote -/

/-- The arguments of `consume_revalidated_quote`; no display currency is the empty text. -/
structure Call where
  quoteId : Uuid
  sessionHash : String
  idempotencyKey : String
  guestData : GuestData
  revalidated : AvailabilityResult
  selectedDisplayCurrency : String
deriving DecidableEq

structure IntentCreation where
  code : String
  intent : Option BookingIntent
  replacementQuote : Option BookingQuote
  oldTotal : Option Dec
  newTotal : Option Dec
deriving DecidableEq

def IntentCreation.of (code : String) : IntentCreation := ⟨code, none, none, none, none⟩

def IntentCreation.with (code : String) (intent : BookingIntent) : IntentCreation := ⟨code, some intent, none, none, none⟩

/-- What the transaction draws and is answered: `replacement` for a new quote, `rates` for a display currency that the quote
has no rate for, the country that `normalize_country_code` returns, and whether the fields of the intent are valid. -/
structure Surroundings where
  now : Time
  intentPk : Uuid
  publicReference : String
  rates : Fx.Found
  replacement : Drawn
  billingCountry : Option String
  fieldsValid : Bool
deriving DecidableEq

/-- The lookup by idempotency key before the lock. -/
def lookUp (intents : List BookingIntent) (c : Call) : Option IntentCreation :=
  (intents.find? fun i => i.idempotencyKey == c.idempotencyKey).map fun i =>
    if i.quote = c.quoteId ∧ i.sessionKeyHash = c.sessionHash then .with "idempotent" i
    else .of "idempotency_conflict"

/-- The intent of a quote is the one of this call. -/
def ownIntent (intents : List BookingIntent) (q : BookingQuote) (c : Call) : Option BookingIntent :=
  (intents.find? fun i => i.quote == q.pk).filter fun i =>
    i.idempotencyKey == c.idempotencyKey && i.sessionKeyHash == c.sessionHash

/-- The fresh price is for the listing, the dates and the guests of the quote. -/
def sameStay (q : BookingQuote) (latest : PriceQuote) : Bool :=
  latest.listingId == q.hostawayListingId && latest.checkIn == q.checkIn && latest.checkOut == q.checkOut &&
    latest.guests == q.guests

/-- `price_changed`. -/
def priceChanged (settings : Settings) (q : BookingQuote) (latest : PriceQuote) : Bool :=
  latest.currency != q.currency || decide (settings.priceTolerance < |latest.totalPrice.value - q.totalPrice|)

/-- The snapshot of an intent: the one of the quote, with the rates of the day if the quote has none to display with. -/
def intentSnapshot (settings : Settings) (q : BookingQuote) (payment : Dec) (snapshot : Fx.AuditSnapshot)
    (displayCurrency : String) (s : Surroundings) : Except Failure (Option Fx.AuditSnapshot) :=
  let finish (snapshot : Fx.AuditSnapshot) (displayAmount : Decimal) : Fx.AuditSnapshot :=
    { snapshot with
      selectedDisplayCurrency := displayCurrency
      displayAmount := displayAmount.format
      quoteCreatedAt := ⟨s.now, true⟩
      quoteExpiresAt := ⟨s.now + settings.intentTtl, true⟩ }
  match Fx.sarToDisplay payment displayCurrency (Fx.ratesFromAuditSnapshot snapshot) with
  | .ok displayAmount => .ok (some (finish snapshot displayAmount))
  | .error (.arithmetic trap) => .error (.fx (.arithmetic trap))
  | .error (.currency _) =>
    let fresh := Fx.getRates settings.fxProviderName s.rates
    match fresh, Fx.sarToDisplay payment displayCurrency fresh with
    | .ok rates, .ok displayAmount =>
      match (do
        let source ← Fx.normalizeCurrency q.currency
        let display ← Fx.normalizeCurrency displayCurrency
        return (← rates.rate source, ← rates.rate display) : Except Fx.Failure (Decimal × Decimal)) with
      | .ok (source, display) =>
        .ok (some (finish
          { snapshot with
            provider := rates.provider
            rateTimestamp := rates.rateTimestamp
            rates := Fx.formatRates rates.rates
            sourceRatePerSar := source.format
            displayRatePerSar := display.format } displayAmount))
      | .error failure => .error (.fx failure)
    | .error (.arithmetic trap), _ | _, .error (.arithmetic trap) => .error (.fx (.arithmetic trap))
    | _, _ => .ok none

/-- The intent that the transaction makes, before it is cleaned. -/
def newIntent (settings : Settings) (q : BookingQuote) (payment : Dec) (displayCurrency : String)
    (snapshot : Fx.AuditSnapshot) (c : Call) (s : Surroundings) : BookingIntent where
  pk := s.intentPk
  publicReference := s.publicReference
  quote := q.pk
  property := q.property
  checkIn := q.checkIn
  checkOut := q.checkOut
  nights := q.nights
  guests := q.guests
  currency := q.currency
  totalPrice := q.totalPrice
  paymentAmountSar := payment
  selectedDisplayCurrency := displayCurrency
  exchangeRateSnapshot := snapshot
  guest := c.guestData
  status := .awaitingPayment
  idempotencyKey := c.idempotencyKey
  sessionKeyHash := c.sessionHash
  acceptedAt := s.now
  expiresAt := s.now + settings.intentTtl

/-- `BookingIntent.clean`, which writes the country back. -/
def BookingIntent.clean (i : BookingIntent) (country : Option String) : Option BookingIntent :=
  match country with
  | none => none
  | some country =>
    if i.property.personCapacity.all (fun capacity => capacity == 0 || decide (i.guests ≤ capacity)) &&
        decide (i.checkIn < i.checkOut) && i.nights == i.checkOut - i.checkIn &&
        decide (i.guest.specialRequests.length ≤ 1000) && ManualBookings.threeLetters i.currency &&
        (i.selectedDisplayCurrency == "" || supportedCode i.selectedDisplayCurrency) &&
        [i.guest.billingStreet1, i.guest.billingCity, i.guest.billingState, i.guest.billingPostcode].all fun text =>
          Text.strip text != "" then
      some { i with guest := { i.guest with billingCountry := country } }
    else none

/-- The insertion of an intent violates a unique column or a check constraint. -/
def violates (intents : List BookingIntent) (i : BookingIntent) : Bool :=
  intents.any (fun j => j.pk == i.pk || j.publicReference == i.publicReference || j.quote == i.quote ||
    j.idempotencyKey == i.idempotencyKey) ||
  decide (i.totalPrice < 0) || decide (i.paymentAmountSar < 0) || decide (i.checkOut ≤ i.checkIn)

/-- What the transaction commits: a new status of the quote, a new quote, a new intent. -/
structure Commit where
  status : Option QuoteStatus
  replacement : Option BookingQuote
  intent : Option BookingIntent
deriving DecidableEq

def Commit.none : Commit := ⟨.none, .none, .none⟩

def Commit.leave (status : QuoteStatus) : Commit := ⟨some status, .none, .none⟩

/-- The transaction from the snapshot of the quote on. -/
def createIntent (settings : Settings) (intents : List BookingIntent) (q : BookingQuote) (payment : Dec)
    (snapshot : Fx.AuditSnapshot) (c : Call) (s : Surroundings) : Except Failure (Commit × IntentCreation) :=
  match if c.selectedDisplayCurrency = "" then .ok q.selectedDisplayCurrency
      else (Fx.normalizeCurrency c.selectedDisplayCurrency).map Fx.Currency.code with
  | .error _ => .ok (.none, .of "invalid_display_currency")
  | .ok displayCurrency =>
    match intentSnapshot settings q payment snapshot displayCurrency s with
    | .error failure => .error failure
    | .ok none => .ok (.none, .of "fx_snapshot_invalid")
    | .ok (some snapshot) =>
      if !s.fieldsValid then .error .validationError
      else
        match (newIntent settings q payment displayCurrency snapshot c s).clean s.billingCountry with
        | none => .error .validationError
        | some i =>
          if violates intents i then
            match ownIntent intents q c with
            | some existing => .ok (.none, .with "idempotent" existing)
            | none => .ok (.none, .of "duplicate")
          else .ok (⟨some .consumed, none, some i⟩, .with "created" i)

/-- The transaction of `consume_revalidated_quote` on the locked quote. -/
def consumeRevalidatedQuote (settings : Settings) (intents : List BookingIntent) (q : BookingQuote) (c : Call)
    (s : Surroundings) : Except Failure (Commit × IntentCreation) :=
  if q.sessionKeyHash ≠ c.sessionHash then .ok (.none, .of "not_found")
  else if !verifyQuoteFingerprint q then .ok (.leave .invalidated, .of "invalid_signature")
  else if q.status ≠ .active then
    match ownIntent intents q c with
    | some existing => .ok (.none, .with "idempotent" existing)
    | none => .ok (.none, .of "quote_not_active")
  else if q.expiresAt ≤ s.now then .ok (.leave .expired, .of "quote_expired")
  else
    match c.revalidated.isAvailable, c.revalidated.quote with
    | true, some latest =>
      if !sameStay q latest then .ok (.leave .invalidated, .of "revalidation_mismatch")
      else if priceChanged settings q latest then do
        let replacement ← createQuoteForProperty settings c.revalidated q.property c.sessionHash "SAR" s.replacement
        return (⟨some .priceChanged, some replacement, none⟩,
          ⟨"price_changed", none, some replacement, some q.totalPrice, some latest.totalPrice.value⟩)
      else
        match q.paymentAmountSar, q.exchangeRateSnapshot with
        | some payment, some snapshot => createIntent settings intents q payment snapshot c s
        | _, _ => .ok (.leave .invalidated, .of "fx_snapshot_invalid")
    | _, _ => .ok (.leave .unavailable, .of "unavailable")

end Apartments.Quotes
