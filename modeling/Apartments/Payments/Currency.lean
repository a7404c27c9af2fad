import Apartments.Decimals
import Apartments.Lib.Outcome
import Apartments.Models

/-!
# Exchange rates and currency snapshots (`payments/currency.py`)

The supported currencies are the four that the settings insist on. An ISO text of a datetime is kept as the datetime. What
`get_rates` finds is given to it: a cached table, the document of the provider, or neither. `create_quote` writes the
snapshot that `validate_payment_snapshot` reads.
-/

namespace Apartments.Fx

inductive Currency
  | sar | mad | eur | usd
deriving DecidableEq, Repr

def Currency.code : Currency → String
  | .sar => "SAR"
  | .mad => "MAD"
  | .eur => "EUR"
  | .usd => "USD"

def supported : List Currency := [.sar, .mad, .eur, .usd]

/-- One value for every currency. -/
structure Rates (α : Type) where
  sar : α
  mad : α
  eur : α
  usd : α
deriving DecidableEq

namespace Rates

variable {α β : Type} {ε : Type*}

def get (r : Rates α) : Currency → α
  | .sar => r.sar
  | .mad => r.mad
  | .eur => r.eur
  | .usd => r.usd

def map (f : α → β) (r : Rates α) : Rates β := ⟨f r.sar, f r.mad, f r.eur, f r.usd⟩

def traverse (f : Currency → α → Except ε β) (r : Rates α) : Except ε (Rates β) := do
  let sar ← f .sar r.sar
  let mad ← f .mad r.mad
  let eur ← f .eur r.eur
  let usd ← f .usd r.usd
  return ⟨sar, mad, eur, usd⟩

@[simp] theorem get_map (f : α → β) (r : Rates α) (c : Currency) : (r.map f).get c = f (r.get c) := by cases c <;> rfl

theorem traverse_eq_ok {f : Currency → α → Except ε β} {r : Rates α} {s : Rates β} :
    r.traverse f = .ok s ↔ ∀ c, f c (r.get c) = .ok (s.get c) := by
  simp only [traverse, bind_eq_ok]
  constructor
  · rintro ⟨sar, hsar, mad, hmad, eur, heur, usd, husd, h⟩
    cases h
    intro c
    cases c <;> assumption
  · intro h
    exact ⟨_, h .sar, _, h .mad, _, h .eur, _, h .usd, rfl⟩

end Rates

/-- How a function ends that does not return: with a `CurrencyError` or with an exception of the arithmetic. -/
inductive Failure
  | currency (code : String)
  | arithmetic (trap : Decimal.Trap)
deriving DecidableEq, Repr

def trapped {α : Type} (m : Except Decimal.Trap α) : Except Failure α :=
  match m with
  | .ok a => .ok a
  | .error t => .error (.arithmetic t)

/-- A datetime, which is naive if it has no offset. -/
structure Stamp where
  instant : Time
  aware : Bool
deriving DecidableEq

/-! ### Amounts and rates -/

/-- `normalize_currency`. -/
def normalizeCurrency (value : String) : Except Failure Currency :=
  found (supported.find? fun c => c.code == Text.upper (Text.strip value)) (.currency "unsupported_currency")

/-- `FX_CURRENCY_MINOR_UNITS`. -/
def minorUnits : Currency → ℕ
  | .sar | .mad | .eur | .usd => 2

/-- `_validated_amount` of a finite `Decimal`. -/
def validatedAmount (amount : Dec) : Except Failure Dec :=
  if amount < 0 then .error (.currency "invalid_amount") else .ok amount

/-- `normalize_amount`. -/
def normalizeAmount (amount : Dec) (currency : Currency) : Except Failure Decimal := do
  let amount ← validatedAmount amount
  trapped (Decimal.quantized (minorUnits currency) amount)

/-- `_decimal_rate` of what the document or the cache has for a currency: `str(value)`, and whether it is a `bool`. -/
def decimalRate (currency : Currency) (isBool : Bool) (text : String) : Except Failure Decimal :=
  let invalid : Failure := .currency ("invalid_rate_" ++ currency.code)
  if isBool then .error invalid
  else
    match Decimal.parse text with
    | some (.finite rate) => if rate.value ≤ 0 then .error invalid else .ok rate
    | _ => .error invalid

structure ExchangeRateSnapshot where
  provider : String
  rates : Rates (Option Decimal)
  rateTimestamp : Stamp
  fetchedAt : Stamp
deriving DecidableEq

/-- `ExchangeRateSnapshot.rate`. -/
def ExchangeRateSnapshot.rate (s : ExchangeRateSnapshot) (currency : Currency) : Except Failure Decimal :=
  found (s.rates.get currency) (.currency ("missing_rate_" ++ currency.code))

/-! ### The rates of the day -/

/-- A value of `raw_rates`; a missing one is `None`. -/
structure RawRate where
  isBool : Bool
  text : String
deriving DecidableEq

/-- A cached table; a text that is no datetime is `none`. -/
structure CachedRates where
  provider : Option String
  baseCurrency : Option String
  rates : Option (Rates RawRate)
  rateTimestamp : Option Stamp
  fetchedAt : Option Stamp
deriving DecidableEq

/-- A table of rates in which the riyal is worth itself. -/
def completeRates (raw : Rates RawRate) (invalidSar : String) : Except Failure (Rates (Option Decimal)) := do
  let rates ← raw.traverse fun c r => decimalRate c r.isBool r.text
  raiseIf (rates.sar.value ≠ 1) (.currency invalidSar)
  return rates.map some

/-- `ExchangeRateSnapshot.from_cache_value`. -/
def fromCacheValue (value : CachedRates) : Except Failure ExchangeRateSnapshot :=
  match value.provider with
  | none => .error (.currency "invalid_cached_provider")
  | some provider => do
    raiseIf (Text.strip provider = "") (.currency "invalid_cached_provider")
    match value.baseCurrency, value.rates with
    | some "SAR", some raw =>
      let rates ← completeRates raw "invalid_sar_rate"
      match value.rateTimestamp, value.fetchedAt with
      | some rateTimestamp, some fetchedAt =>
        raiseIf (!rateTimestamp.aware ∨ !fetchedAt.aware) (.currency "invalid_cached_timestamp")
        return ⟨Text.strip provider, rates, rateTimestamp, fetchedAt⟩
      | _, _ => .error (.currency "invalid_cached_timestamp")
    | _, _ => .error (.currency "invalid_cached_base")

/-- The document of the provider. A timestamp is what `_aware_datetime` makes of it, `none` if it raises. -/
structure RatesDocument where
  result : Option String
  baseCode : Option String
  rates : Option (Rates RawRate)
  timeLastUpdate : Option (Option Time)
  timeNextUpdate : Option (Option Time)
deriving DecidableEq

/-- `ExchangeRateProvider.validate`. -/
def validate (providerName : String) (now : Time) (document : RatesDocument) : Except Failure ExchangeRateSnapshot := do
  raiseIf (document.result ≠ some "success") (.currency "fx_provider_unsuccessful")
  raiseIf (document.baseCode ≠ some "SAR") (.currency "fx_provider_invalid_base")
  let raw ← found document.rates (.currency "fx_provider_missing_rates")
  let rates ← completeRates raw "fx_provider_invalid_sar_rate"
  let last ← found (document.timeLastUpdate.getD (some now)) (.currency "invalid_time_last_update_unix")
  raiseIf (document.timeNextUpdate = some none) (.currency "invalid_time_next_update_unix")
  return ⟨providerName, rates, ⟨last, true⟩, ⟨now, true⟩⟩

/-- What `get_rates` ends with: the table of a cache, the document it fetches, or neither. -/
inductive Found
  | cached (value : CachedRates)
  | fetched (document : RatesDocument) (now : Time)
  | nothing (code : String)
deriving DecidableEq

/-- `CurrencyService.get_rates`. -/
def getRates (providerName : String) : Found → Except Failure ExchangeRateSnapshot
  | .cached value => fromCacheValue value
  | .fetched document now => validate providerName now document
  | .nothing code => .error (.currency code)

/-- `_identity_snapshot`. -/
def identitySnapshot (now : Time) : ExchangeRateSnapshot where
  provider := "identity"
  rates := ⟨some ⟨false, 1, 0⟩, none, none, none⟩
  rateTimestamp := ⟨now, true⟩
  fetchedAt := ⟨now, true⟩

/-! ### The snapshot of a quote -/

/-- `CurrencyService.source_to_sar`; the rates are asked for only if the source is not the riyal. -/
def sourceToSar (amount : Dec) (source : Currency) (rates : Except Failure ExchangeRateSnapshot) :
    Except Failure Decimal := do
  let amount ← validatedAmount amount
  if source = .sar then normalizeAmount amount .sar
  else
    let snapshot ← rates
    let rate ← snapshot.rate source
    let converted ← trapped (Decimal.divide amount rate.value)
    normalizeAmount converted .sar

/-- `CurrencyService.sar_to_display`. -/
def sarToDisplay (amountSar : Dec) (displayCurrency : String) (rates : Except Failure ExchangeRateSnapshot) :
    Except Failure Decimal := do
  let display ← normalizeCurrency displayCurrency
  let payment ← normalizeAmount amountSar .sar
  if display = .sar then return payment
  else
    let snapshot ← rates
    let rate ← snapshot.rate display
    let converted ← trapped (Decimal.multiply payment.value rate.value)
    normalizeAmount converted display

/-- The JSON of `exchange_rate_snapshot`. -/
structure AuditSnapshot where
  version : ℕ
  provider : String
  baseCurrency : String
  rateTimestamp : Stamp
  rates : Rates (Option String)
  sourceAmount : String
  sourceCurrency : String
  paymentAmountSar : String
  paymentCurrency : String
  selectedDisplayCurrency : String
  displayAmount : String
  sourceRatePerSar : String
  displayRatePerSar : String
  quoteCreatedAt : Stamp
  quoteExpiresAt : Stamp
deriving DecidableEq

structure CurrencyQuote where
  paymentAmountSar : Decimal
  displayCurrency : Currency
  snapshot : AuditSnapshot
deriving DecidableEq

def formatRates (rates : Rates (Option Decimal)) : Rates (Option String) := rates.map (·.map Decimal.format)

/-- `CurrencyService.create_quote`. -/
def createQuote (rates : Except Failure ExchangeRateSnapshot) (sourceAmount : Decimal)
    (sourceCurrency displayCurrency : String) (createdAt expiresAt : Time) : Except Failure CurrencyQuote := do
  let source ← normalizeCurrency sourceCurrency
  let display ← normalizeCurrency displayCurrency
  let _ ← validatedAmount sourceAmount.value
  let rates ← if source = .sar ∧ display = .sar then .ok (identitySnapshot createdAt) else rates
  let payment ← sourceToSar sourceAmount.value source (.ok rates)
  let displayAmount ← sarToDisplay payment.value display.code (.ok rates)
  let sourceRate ← rates.rate source
  let displayRate ← rates.rate display
  return {
    paymentAmountSar := payment
    displayCurrency := display
    snapshot := {
      version := 1
      provider := rates.provider
      baseCurrency := Currency.sar.code
      rateTimestamp := rates.rateTimestamp
      rates := formatRates rates.rates
      sourceAmount := sourceAmount.format
      sourceCurrency := source.code
      paymentAmountSar := payment.format
      paymentCurrency := Currency.sar.code
      selectedDisplayCurrency := display.code
      displayAmount := displayAmount.format
      sourceRatePerSar := sourceRate.format
      displayRatePerSar := displayRate.format
      quoteCreatedAt := ⟨createdAt, true⟩
      quoteExpiresAt := ⟨expiresAt, true⟩ } }

/-! ### Reading a snapshot back -/

/-- A rate of a snapshot; a currency without one is left out. -/
def auditRate (currency : Currency) : Option String → Except Failure (Option Decimal)
  | none => .ok none
  | some text => (decimalRate currency false text).map some

/-- `rates_from_audit_snapshot`. -/
def ratesFromAuditSnapshot (value : AuditSnapshot) : Except Failure ExchangeRateSnapshot := do
  let rates ← value.rates.traverse auditRate
  raiseIf (rates.sar.map Decimal.value ≠ some 1) (.currency "fx_snapshot_invalid_sar_rate")
  raiseIf (!value.rateTimestamp.aware) (.currency "fx_snapshot_invalid_timestamp")
  return ⟨if value.provider = "" then "snapshot" else value.provider, rates, value.rateTimestamp, value.rateTimestamp⟩

/-- `validate_payment_snapshot`. -/
def validatePaymentSnapshot (sourceAmount : Dec) (sourceCurrency : String) (paymentAmountSar : Dec)
    (snapshot : AuditSnapshot) : Except Failure Unit := do
  let source ← normalizeCurrency sourceCurrency
  let payment ← normalizeAmount paymentAmountSar .sar
  raiseIf (snapshot.sourceCurrency ≠ source.code) (.currency "fx_snapshot_source_currency_mismatch")
  let snapSource ← found (Decimal.parse snapshot.sourceAmount) (.currency "fx_snapshot_amount_invalid")
  let snapPayment ← found (Decimal.parse snapshot.paymentAmountSar) (.currency "fx_snapshot_amount_invalid")
  let amount ← validatedAmount sourceAmount
  match snapSource with
  | .special => .error (.currency "fx_snapshot_source_amount_mismatch")
  | .finite snapSource =>
    raiseIf (snapSource.value ≠ amount) (.currency "fx_snapshot_source_amount_mismatch")
    match snapPayment with
    | .special => .error (.currency "invalid_amount")
    | .finite snapPayment =>
      let snapPayment ← normalizeAmount snapPayment.value .sar
      raiseIf (snapPayment.value ≠ payment.value) (.currency "fx_snapshot_payment_amount_mismatch")
      raiseIf (snapshot.paymentCurrency ≠ Currency.sar.code) (.currency "fx_snapshot_payment_currency_mismatch")
      let rates := ratesFromAuditSnapshot snapshot
      let snapshot ← rates
      let expected ← sourceToSar sourceAmount source (.ok snapshot)
      raiseIf (expected.value ≠ payment.value) (.currency "fx_snapshot_conversion_mismatch")

end Apartments.Fx
