import Apartments.Payments.Currency

/-!
# A snapshot reproduces the charge

`validate_payment_snapshot` reads the texts of a snapshot back and converts the source amount again. `Reproduces` is what it
needs. A rate that is written with `format` is read with its value, and a conversion goes by the values, so that the
snapshot of `create_quote` reproduces its charge.
-/

namespace Apartments.Fx

variable {s s' : ExchangeRateSnapshot} {a : AuditSnapshot} {amount payment : Dec} {source : Currency}

/-- The rates are positive, the riyal is worth itself and the time has an offset; a currency may have no rate. -/
structure ExchangeRateSnapshot.Positive (s : ExchangeRateSnapshot) : Prop where
  positive : ∀ c r, s.rates.get c = some r → 0 < r.value
  sar : s.rates.sar.map Decimal.value = some 1
  aware : s.rateTimestamp.aware = true

/-- Every currency has a rate. -/
def ExchangeRateSnapshot.Complete (s : ExchangeRateSnapshot) : Prop := ∀ c, (s.rates.get c).isSome = true

/-! ### The rates of the day -/

theorem decimalRate_pos {c : Currency} {isBool : Bool} {text : String} {r : Decimal}
    (h : decimalRate c isBool text = .ok r) : 0 < r.value := by
  unfold decimalRate at h
  dsimp only at h
  split at h
  · cases h
  split at h
  · split at h <;> cases h
    exact not_le.1 ‹_›
  · cases h

theorem decimalRate_format {r : Decimal} (c : Currency) (hr : 0 < r.value) :
    decimalRate c false r.format = .ok r.plain := by
  have hplain : ¬ r.plain.value ≤ 0 := by rw [r.value_plain]; exact not_le.2 hr
  simp [decimalRate, r.parse_format, hplain]

theorem completeRates_ok {raw : Rates RawRate} {invalidSar : String} {rates : Rates (Option Decimal)}
    (h : completeRates raw invalidSar = .ok rates) :
    (∀ c, ∃ r, rates.get c = some r ∧ 0 < r.value) ∧ rates.sar.map Decimal.value = some 1 := by
  unfold completeRates at h
  simp only [bind_eq_ok] at h
  obtain ⟨read, hread, ⟨⟩, hsar, h⟩ := h
  cases h
  have hsar : read.sar.value = 1 := by simpa [raiseIf] using hsar
  refine ⟨fun c => ⟨read.get c, Rates.get_map .., decimalRate_pos (Rates.traverse_eq_ok.1 hread c)⟩, ?_⟩
  simp [Rates.map, hsar]

theorem complete_of_rates {rates : Rates (Option Decimal)} {provider : String} {timestamp fetched : Stamp}
    (hrates : (∀ c, ∃ r, rates.get c = some r ∧ 0 < r.value) ∧ rates.sar.map Decimal.value = some 1)
    (haware : timestamp.aware = true) :
    (ExchangeRateSnapshot.mk provider rates timestamp fetched).Positive ∧
      (ExchangeRateSnapshot.mk provider rates timestamp fetched).Complete := by
  refine ⟨⟨fun c r hr => ?_, hrates.2, haware⟩, fun c => ?_⟩
  · obtain ⟨r', hr', hpos⟩ := hrates.1 c
    obtain rfl : r' = r := Option.some.inj (hr'.symm.trans hr)
    exact hpos
  · obtain ⟨r, hr, -⟩ := hrates.1 c
    simp [hr]

theorem fromCacheValue_positive {value : CachedRates} (h : fromCacheValue value = .ok s) : s.Positive ∧ s.Complete := by
  unfold fromCacheValue at h
  split at h
  · cases h
  simp only [bind_eq_ok] at h
  obtain ⟨⟨⟩, -, h⟩ := h
  split at h
  · simp only [bind_eq_ok] at h
    obtain ⟨rates, hrates, h⟩ := h
    split at h
    · simp only [bind_eq_ok] at h
      obtain ⟨⟨⟩, haware, h⟩ := h
      cases h
      have haware := raiseIf_eq_ok.1 haware
      exact complete_of_rates (completeRates_ok hrates) (by simpa using (not_or.1 haware).1)
    · cases h
  · cases h

theorem validate_positive {name : String} {now : Time} {document : RatesDocument}
    (h : validate name now document = .ok s) : s.Positive ∧ s.Complete := by
  unfold validate at h
  simp only [bind_eq_ok] at h
  obtain ⟨⟨⟩, -, ⟨⟩, -, raw, -, rates, hrates, last, -, ⟨⟩, -, h⟩ := h
  cases h
  exact complete_of_rates (completeRates_ok hrates) rfl

/-- Whatever `get_rates` finds, it answers with a complete table. -/
theorem getRates_positive {name : String} {answer : Found} (h : getRates name answer = .ok s) :
    s.Positive ∧ s.Complete := by
  cases answer with
  | cached value => exact fromCacheValue_positive h
  | fetched document now => exact validate_positive h
  | nothing code => cases h

theorem identitySnapshot_positive (now : Time) : (identitySnapshot now).Positive := by
  have hone : (⟨false, 1, 0⟩ : Decimal).value = 1 := by simp [Decimal.value]
  refine ⟨fun c r hr => ?_, congrArg some hone, rfl⟩
  cases c <;> cases hr
  rw [hone]
  exact one_pos

/-! ### Rates that are read back -/

/-- The rates as their texts denote them. -/
def plainRates (rates : Rates (Option Decimal)) : Rates (Option Decimal) := rates.map (·.map Decimal.plain)

theorem value_plainRates (rates : Rates (Option Decimal)) (c : Currency) :
    ((plainRates rates).get c).map Decimal.value = (rates.get c).map Decimal.value := by
  rw [plainRates, Rates.get_map]
  cases rates.get c with
  | none => rfl
  | some r => simp [Decimal.value_plain]

theorem ratesFromAuditSnapshot_format (hs : s.Positive) (ha : a.rates = formatRates s.rates)
    (haware : a.rateTimestamp.aware = true) : ∃ provider, ratesFromAuditSnapshot a =
      .ok ⟨provider, plainRates s.rates, a.rateTimestamp, a.rateTimestamp⟩ := by
  have hread : a.rates.traverse auditRate = .ok (plainRates s.rates) := by
    refine Rates.traverse_eq_ok.2 fun c => ?_
    rw [ha, formatRates, plainRates, Rates.get_map, Rates.get_map]
    cases hc : s.rates.get c with
    | none => rfl
    | some r => simp [auditRate, decimalRate_format c (hs.positive c r hc), Except.map]
  have hsar : (plainRates s.rates).sar.map Decimal.value = some 1 :=
    (value_plainRates s.rates .sar).trans hs.sar
  refine ⟨if a.provider = "" then "snapshot" else a.provider, ?_⟩
  simp only [ratesFromAuditSnapshot, bind_eq_ok]
  exact ⟨_, hread, (), raiseIf_of_not (not_not.2 hsar), (), raiseIf_of_not (by simp [haware]), rfl⟩

/-- A conversion goes by the values of the rates. -/
theorem sourceToSar_plainRates {provider : String} {timestamp fetched : Stamp} :
    sourceToSar amount source (.ok ⟨provider, plainRates s.rates, timestamp, fetched⟩) =
      sourceToSar amount source (.ok s) := by
  cases h : s.rates.get source with
  | none => simp [sourceToSar, ExchangeRateSnapshot.rate, plainRates, h, bind, Except.bind]
  | some r => simp [sourceToSar, ExchangeRateSnapshot.rate, plainRates, h, found, bind, Except.bind, Decimal.value_plain]

theorem positive_plainRates {provider : String} {timestamp fetched : Stamp} (hs : s.Positive)
    (haware : timestamp.aware = true) :
    (ExchangeRateSnapshot.mk provider (plainRates s.rates) timestamp fetched).Positive := by
  refine ⟨fun c r hr => ?_, (value_plainRates s.rates .sar).trans hs.sar, haware⟩
  have hvalue := value_plainRates s.rates c
  rw [show (plainRates s.rates).get c = some r from hr] at hvalue
  obtain ⟨r', hr', hv⟩ := Option.map_eq_some_iff.1 hvalue.symm
  rw [← hv]
  exact hs.positive c r' hr'

theorem complete_plainRates {provider : String} {timestamp fetched : Stamp} (hs : s.Complete) :
    (ExchangeRateSnapshot.mk provider (plainRates s.rates) timestamp fetched).Complete := by
  intro c
  simpa [plainRates] using hs c

/-! ### The snapshot of a quote -/

/-- What `validate_payment_snapshot` needs of a snapshot. -/
structure Reproduces (a : AuditSnapshot) (source : Currency) (amount payment : Dec) : Prop where
  sourceCurrency : a.sourceCurrency = source.code
  paymentCurrency : a.paymentCurrency = Currency.sar.code
  sourceAmount : ∃ d, Decimal.parse a.sourceAmount = some (.finite d) ∧ d.value = amount
  paymentAmount : ∃ d, Decimal.parse a.paymentAmountSar = some (.finite d) ∧ d.value = payment
  exact : ∃ d, normalizeAmount payment .sar = .ok d ∧ d.value = payment
  converted : ∃ s, ratesFromAuditSnapshot a = .ok s ∧ s.Positive ∧
    ∃ d, sourceToSar amount source (.ok s) = .ok d ∧ d.value = payment

theorem validatedAmount_ok {x y : Dec} : validatedAmount x = .ok y ↔ 0 ≤ x ∧ x = y := by
  unfold validatedAmount
  split
  · exact ⟨nofun, fun h => absurd h.1 (not_le.2 ‹_›)⟩
  · exact ⟨fun h => ⟨not_lt.1 ‹_›, Except.ok.inj h⟩, fun h => congrArg _ h.2⟩

theorem normalizeAmount_ok {x : Dec} {c : Currency} {d : Decimal} :
    normalizeAmount x c = .ok d ↔ 0 ≤ x ∧ Decimal.quantized (minorUnits c) x = .ok d := by
  simp only [normalizeAmount, bind_eq_ok, validatedAmount_ok, trapped]
  constructor
  · rintro ⟨y, ⟨hx, rfl⟩, h⟩
    split at h <;> cases h
    exact ⟨hx, ‹_›⟩
  · rintro ⟨hx, h⟩
    exact ⟨x, ⟨hx, rfl⟩, by rw [h]⟩

/-- An amount that has been rounded is rounded to itself. -/
theorem normalizeAmount_value {x : Dec} {d : Decimal} (h : normalizeAmount x .sar = .ok d) :
    normalizeAmount d.value .sar = .ok d := by
  obtain ⟨hx, h⟩ := normalizeAmount_ok.1 h
  exact normalizeAmount_ok.2 (Decimal.quantized_value hx h)

theorem sourceToSar_ok {rates : Except Failure ExchangeRateSnapshot} {d : Decimal}
    (h : sourceToSar amount source rates = .ok d) : 0 ≤ amount ∧ ∃ x, normalizeAmount x .sar = .ok d := by
  simp only [sourceToSar, bind_eq_ok, validatedAmount_ok] at h
  obtain ⟨y, ⟨hy, rfl⟩, h⟩ := h
  refine ⟨hy, ?_⟩
  split at h
  · exact ⟨_, h⟩
  · simp only [bind_eq_ok] at h
    obtain ⟨_, _, _, _, x, _, h⟩ := h
    exact ⟨x, h⟩

theorem Reproduces.validated {currency : String} (h : Reproduces a source amount payment)
    (hcurrency : normalizeCurrency currency = .ok source) :
    validatePaymentSnapshot amount currency payment a = .ok () := by
  obtain ⟨d, hd, hdv⟩ := h.exact
  obtain ⟨x, hx, hxv⟩ := h.sourceAmount
  obtain ⟨y, hy, hyv⟩ := h.paymentAmount
  obtain ⟨s, hs, -, z, hz, hzv⟩ := h.converted
  have hamount : validatedAmount amount = .ok amount := validatedAmount_ok.2 ⟨(sourceToSar_ok hz).1, rfl⟩
  unfold validatePaymentSnapshot
  simp only [bind_eq_ok]
  refine ⟨source, hcurrency, d, hd, (), raiseIf_of_not (not_not.2 h.sourceCurrency), .finite x, by rw [hx]; rfl,
    .finite y, by rw [hy]; rfl, amount, hamount, ?_⟩
  simp only [bind_eq_ok]
  exact ⟨(), raiseIf_of_not (not_not.2 hxv), d, by rw [hyv, hd], (), raiseIf_of_not (by simp), (), raiseIf_of_not (not_not.2 h.paymentCurrency), s, hs, z, hz,
    raiseIf_of_not (not_not.2 (hzv.trans hdv.symm))⟩

@[simp] theorem normalizeCurrency_code (c : Currency) : normalizeCurrency c.code = .ok c := by
  cases c <;> decide +kernel

/-- With a complete table a payment can be displayed in every currency, unless the arithmetic traps. -/
theorem sarToDisplay_complete (hs : s.Positive) (hcomplete : s.Complete) {d : Decimal}
    (hd : normalizeAmount payment .sar = .ok d) (display : Currency) (code : String) :
    sarToDisplay payment display.code (.ok s) ≠ .error (.currency code) := by
  intro h
  simp only [sarToDisplay, normalizeCurrency_code, hd, bind, Except.bind] at h
  split at h
  · cases h
  obtain ⟨r, hr⟩ := Option.isSome_iff_exists.1 (hcomplete display)
  have hdv := (normalizeAmount_ok.1 (normalizeAmount_value hd)).1
  simp only [ExchangeRateSnapshot.rate, hr, found] at h
  cases hx : Decimal.multiply d.value r.value with
  | error trap =>
    rw [hx] at h
    cases h
  | ok x =>
    have hx := Decimal.rounded_nonneg (mul_nonneg hdv (hs.positive display r hr).le) hx
    rw [‹Decimal.multiply _ _ = _›] at h
    simp only [trapped, normalizeAmount, validatedAmount_ok.2 ⟨hx, rfl⟩, bind, Except.bind] at h
    split at h <;> cases h

variable {rates : Except Failure ExchangeRateSnapshot} {q : CurrencyQuote} {sourceAmount : Decimal}
  {currency display : String} {createdAt expiresAt : Time}

/-- The rates that `create_quote` uses, and the charge it takes of them. -/
theorem createQuote_ok (h : createQuote rates sourceAmount currency display createdAt expiresAt = .ok q) :
    ∃ source s, normalizeCurrency currency = .ok source ∧
      (source = .sar ∧ s = identitySnapshot createdAt ∨ rates = .ok s) ∧
      sourceToSar sourceAmount.value source (.ok s) = .ok q.paymentAmountSar ∧ q.snapshot.rates = formatRates s.rates ∧
      q.snapshot.rateTimestamp = s.rateTimestamp ∧ q.snapshot.sourceAmount = sourceAmount.format ∧
      q.snapshot.sourceCurrency = source.code ∧ q.snapshot.paymentAmountSar = q.paymentAmountSar.format ∧
      q.snapshot.paymentCurrency = Currency.sar.code := by
  simp only [createQuote, bind_eq_ok] at h
  obtain ⟨source, hsource, shown, -, _, -, h⟩ := h
  split at h
  · rename_i hboth
    simp only [bind_eq_ok] at h
    obtain ⟨s, hs, paid, hpaid, _, -, _, -, _, -, h⟩ := h
    cases h
    exact ⟨source, s, hsource, .inl ⟨hboth.1, (Except.ok.inj hs).symm⟩, hpaid, rfl, rfl, rfl, rfl, rfl, rfl⟩
  · simp only [bind_eq_ok] at h
    obtain ⟨s, hs, paid, hpaid, _, -, _, -, _, -, h⟩ := h
    cases h
    exact ⟨source, s, hsource, .inr hs, hpaid, rfl, rfl, rfl, rfl, rfl, rfl⟩

/-- A quote made from a table of positive rates reproduces its charge. -/
theorem createQuote_reproduces (hrates : ∀ s, rates = .ok s → s.Positive)
    (h : createQuote rates sourceAmount currency display createdAt expiresAt = .ok q) :
    ∃ source, normalizeCurrency currency = .ok source ∧
      Reproduces q.snapshot source sourceAmount.value q.paymentAmountSar.value := by
  obtain ⟨source, s, hsource, hs, hpaid, hformat, htime, hamount, hcode, hpayment, hsar⟩ := createQuote_ok h
  have hpositive : s.Positive := by
    rcases hs with ⟨-, rfl⟩ | hs
    · exact identitySnapshot_positive createdAt
    · exact hrates s hs
  have haware : q.snapshot.rateTimestamp.aware = true := by rw [htime]; exact hpositive.aware
  obtain ⟨provider, hread⟩ := ratesFromAuditSnapshot_format hpositive hformat haware
  obtain ⟨-, x, hx⟩ := sourceToSar_ok hpaid
  refine ⟨source, hsource, hcode, hsar, ⟨_, hamount ▸ sourceAmount.parse_format, sourceAmount.value_plain⟩,
    ⟨_, hpayment ▸ q.paymentAmountSar.parse_format, q.paymentAmountSar.value_plain⟩, ⟨_, normalizeAmount_value hx, rfl⟩,
    _, hread, positive_plainRates hpositive haware, _, ?_, rfl⟩
  rw [sourceToSar_plainRates, hpaid]

/-- The table of a quote is complete, unless its source is the riyal. -/
theorem createQuote_complete (hrates : ∀ s, rates = .ok s → s.Positive ∧ s.Complete)
    (h : createQuote rates sourceAmount currency display createdAt expiresAt = .ok q)
    (hcurrency : normalizeCurrency currency = .ok source) (hsource : source ≠ .sar) :
    ∀ s, ratesFromAuditSnapshot q.snapshot = .ok s → s.Complete := by
  obtain ⟨source', s, hsource', hs, -, hformat, htime, -⟩ := createQuote_ok h
  obtain rfl := Except.ok.inj (hcurrency.symm.trans hsource')
  rcases hs with ⟨hsar, -⟩ | hs
  · exact absurd hsar hsource
  obtain ⟨provider, hread⟩ := ratesFromAuditSnapshot_format (hrates s hs).1 hformat
    (by rw [htime]; exact (hrates s hs).1.aware)
  intro read hread'
  obtain rfl := Except.ok.inj (hread.symm.trans hread')
  exact complete_plainRates (hrates s hs).2

/-- The rates of a snapshot whose source is the riyal may be replaced. -/
theorem Reproduces.replaced {day : ExchangeRateSnapshot} (h : Reproduces a .sar amount payment) (hday : day.Positive)
    {b : AuditSnapshot} (hrates : b.rates = formatRates day.rates) (htime : b.rateTimestamp = day.rateTimestamp)
    (hsource : b.sourceCurrency = a.sourceCurrency) (hpaid : b.paymentCurrency = a.paymentCurrency)
    (hamount : b.sourceAmount = a.sourceAmount) (hpayment : b.paymentAmountSar = a.paymentAmountSar) :
    Reproduces b .sar amount payment := by
  have haware : b.rateTimestamp.aware = true := by rw [htime]; exact hday.aware
  obtain ⟨provider, hread⟩ := ratesFromAuditSnapshot_format hday hrates haware
  obtain ⟨s, -, -, d, hd, hdv⟩ := h.converted
  exact ⟨hsource ▸ h.sourceCurrency, hpaid ▸ h.paymentCurrency, hamount ▸ h.sourceAmount, hpayment ▸ h.paymentAmount,
    h.exact, _, hread, positive_plainRates hday haware, d, hd, hdv⟩

end Apartments.Fx
