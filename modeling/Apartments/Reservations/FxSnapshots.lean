import Apartments.Payments.Snapshots
import Apartments.Reservations.QuoteConsumed

/-!
# Intents that can be paid

An intent inherits the snapshot of its quote. Its rates are replaced by those of the day if the quote has no rate for the
currency that is displayed; that happens only to the identity snapshot of a riyal quote, whose rates the conversion does not
read. So the snapshot of every intent passes the check of the checkout.
-/

namespace Apartments.Quotes

open Machine

variable {settings : Settings} {q : BookingQuote} {i : BookingIntent} {s : Surroundings}

/-- The snapshot of the quote reproduces its charge, and displays in every currency unless its source is the riyal. -/
structure Priced (q : BookingQuote) (payment : Dec) (a : Fx.AuditSnapshot) (source : Fx.Currency) : Prop where
  paid : q.paymentAmountSar = some payment
  snapshot : q.exchangeRateSnapshot = some a
  currency : Fx.normalizeCurrency q.currency = .ok source
  reproduces : Fx.Reproduces a source q.totalPrice payment
  complete : source ≠ .sar → ∀ table, Fx.ratesFromAuditSnapshot a = .ok table → table.Complete
  display : ∃ shown : Fx.Currency, q.selectedDisplayCurrency = shown.code

/-- `validate_payment_snapshot` as the checkout calls it. -/
def Payable (i : BookingIntent) : Prop :=
  Fx.validatePaymentSnapshot i.totalPrice i.currency i.paymentAmountSar i.exchangeRateSnapshot = .ok ()

instance (i : BookingIntent) : Decidable (Payable i) := inferInstanceAs (Decidable (_ = _))

theorem Offered.priced (h : Offered settings q) : ∃ payment a source, Priced q payment a source := by
  obtain ⟨availability, property, sessionHash, displayCurrency, d, h⟩ := h
  unfold createQuoteForProperty at h
  split at h
  · rename_i price _ _
    iterate 3
      split at h
      · cases h
    split at h
    · cases h
    · cases h
    rename_i currency hcurrency
    dsimp only at h
    split_ifs at h
    cases h
    have hrates : ∀ table, Fx.getRates settings.fxProviderName d.rates = .ok table → table.Positive ∧ table.Complete :=
      fun _ => Fx.getRates_positive
    obtain ⟨source, hsource, hreproduces⟩ := Fx.createQuote_reproduces (fun table ht => (hrates table ht).1) hcurrency
    exact ⟨_, _, source, rfl, rfl, hsource, hreproduces,
      fun hne => Fx.createQuote_complete hrates hcurrency hsource hne, _, rfl⟩
  · cases h

theorem Priced.leave {payment : Dec} {a : Fx.AuditSnapshot} {source : Fx.Currency} (h : Priced q payment a source)
    (status : Expiration.QuoteStatus) (now : Time) : Priced (q.leave status now) payment a source := by
  cases status <;> exact ⟨h.paid, h.snapshot, h.currency, h.reproduces, h.complete, h.display⟩

/-- What an intent displays does not matter for its charge. -/
theorem intentSnapshot_reproduces {payment : Dec} {a b : Fx.AuditSnapshot} {source shown : Fx.Currency}
    (h : Priced q payment a source) (hb : intentSnapshot settings q payment a shown.code s = .ok (some b)) :
    Fx.Reproduces b source q.totalPrice payment := by
  have hr := h.reproduces
  unfold intentSnapshot at hb
  dsimp only at hb
  split at hb
  · cases hb
    exact ⟨hr.sourceCurrency, hr.paymentCurrency, hr.sourceAmount, hr.paymentAmount, hr.exact, hr.converted⟩
  · cases hb
  rename_i code hmissing
  -- a complete table displays every currency
  have hsar : source = .sar := by
    by_contra hne
    obtain ⟨table, htable, hpositive, -⟩ := hr.converted
    obtain ⟨d, hd, -⟩ := hr.exact
    rw [htable] at hmissing
    exact Fx.sarToDisplay_complete hpositive (h.complete hne table htable) hd shown code hmissing
  subst hsar
  split at hb
  · rename_i day displayAmount hday _
    split at hb
    · cases hb
      exact hr.replaced (Fx.getRates_positive hday).1 rfl rfl rfl rfl rfl rfl
    · cases hb
  all_goals cases hb

/-- An intent that inherits the snapshot of a priced quote can be paid. -/
theorem Inherits.payable {payment : Dec} {a : Fx.AuditSnapshot} {source : Fx.Currency} {c : Call}
    (h : Inherits settings i q s) (hmade : MadeFrom i q c) (hq : Priced q payment a source) : Payable i := by
  obtain ⟨payment', a', displayCurrency, hpayment, hsnapshot, hshown, hb⟩ := h
  obtain rfl := Option.some.inj (hq.paid.symm.trans hpayment)
  obtain rfl := Option.some.inj (hq.snapshot.symm.trans hsnapshot)
  obtain ⟨shown, rfl⟩ : ∃ shown : Fx.Currency, displayCurrency = shown.code := by
    rcases hshown with rfl | hshown
    · exact hq.display
    · exact hshown
  have hpaid : i.paymentAmountSar = payment := Option.some.inj (hmade.price.2.2.trans hpayment)
  unfold Payable
  rw [hmade.price.1, hmade.price.2.1, hpaid]
  exact (intentSnapshot_reproduces hq hb).validated hq.currency

namespace World

/-- Every quote is priced and every intent can be paid. -/
structure Charged (w : World) : Prop where
  quotes : ∀ q ∈ w.quotes, ∃ payment a source, Priced q payment a source
  intents : ∀ i ∈ w.intents, Payable i

variable {w : World}

theorem Charged.write (h : Charged w) (pk : Uuid) (status : Expiration.QuoteStatus) (now : Time) :
    Charged (w.write pk status now) := by
  refine ⟨fun q hq => ?_, h.intents⟩
  obtain ⟨x, hx, rfl⟩ := Table.mem_modify.1 hq
  obtain ⟨payment, a, source, hpriced⟩ := h.quotes x hx
  split
  · exact ⟨payment, a, source, hpriced.leave status now⟩
  · exact ⟨payment, a, source, hpriced⟩

theorem Charged.addQuote (h : Charged w) (hq : Offered settings q) : Charged { w with quotes := w.quotes ++ [q] } := by
  refine ⟨fun x hx => ?_, h.intents⟩
  rcases List.mem_append.1 hx with hx | hx
  · exact h.quotes x hx
  · rw [List.mem_singleton.1 hx]
    exact hq.priced

theorem Charged.step (settings : Settings) (h : Charged w) (a : Action) : Charged (w.step settings a) := by
  have hmove := step_move settings w a
  generalize w.step settings a = w' at hmove ⊢
  cases hmove with
  | waited pending => exact { h with }
  | left pending pk status now => exact { h.write pk status now with }
  | offered q hq => exact h.addQuote hq
  | replaced pending pk now r hr => exact { (h.write pk .priceChanged now).addQuote hr with }
  | created pending k s c q i _ _ hq _ _ hmade hinherits =>
    obtain ⟨payment, a, source, hpriced⟩ := h.quotes q hq
    refine ⟨(h.write c.quoteId .consumed s.now).quotes, fun j hj => ?_⟩
    rcases List.mem_append.1 hj with hj | hj
    · exact h.intents j hj
    · rw [List.mem_singleton.1 hj]
      exact hinherits.payable hmade hpriced

/-- The snapshot of a quote is accepted for the amount it is made of and the charge it is made with, whatever positive
rates it is made from; and in every run every intent is accepted with the snapshot it has inherited. -/
theorem snapshots_accepted (settings : Settings) (hquotes : ∀ q ∈ w.quotes, Offered settings q) (hintents : w.intents = [])
    (as : List Action) :
    (∀ rates sourceAmount currency display createdAt expiresAt made,
      (∀ table : Fx.ExchangeRateSnapshot, rates = .ok table → table.Positive) →
      Fx.createQuote rates sourceAmount currency display createdAt expiresAt = .ok made →
      Fx.validatePaymentSnapshot sourceAmount.value currency made.paymentAmountSar.value made.snapshot = .ok ()) ∧
    ∀ i ∈ (run (World.step settings) w as).intents, Payable i := by
  refine ⟨fun rates sourceAmount currency display createdAt expiresAt made hrates h => ?_, ?_⟩
  · obtain ⟨source, hsource, hreproduces⟩ := Fx.createQuote_reproduces hrates h
    exact hreproduces.validated hsource
  · have h0 : Charged w := ⟨fun q hq => (hquotes q hq).priced, by simp [hintents]⟩
    exact (run_inv (I := Charged) (fun _ a h => h.step settings a) h0 as).intents

/-- The table of the day, in which a euro is worth 4.4 riyals. -/
def sampleRates : Fx.Found :=
  .fetched ⟨some "success", some "SAR", some ⟨⟨false, "1"⟩, ⟨false, "2.45"⟩, ⟨false, "0.227"⟩, ⟨false, "0.2666"⟩⟩, none, none⟩ 5

/-- A riyal quote is accepted in euros. -/
def sampleEuroRun : List Action :=
  [.offer sampleAvailability sampleProperty "session" "SAR" sampleDrawn,
    .call { sampleCall with selectedDisplayCurrency := "EUR" },
    .transact 0 { sampleSurroundings with rates := sampleRates }]

theorem snapshots_accepted_euro :
    (∃ made, Fx.createQuote (Fx.getRates "provider" sampleRates) ⟨false, 100, 0⟩ "EUR" "USD" 0 900 = .ok made ∧
      Fx.validatePaymentSnapshot 100 "EUR" made.paymentAmountSar.value made.snapshot = .ok ()) ∧
    (run (World.step sampleSettings) ⟨[], [], []⟩ sampleEuroRun).intents.map (fun i => i.exchangeRateSnapshot.displayAmount) =
      ["22.70"] ∧
    ∀ i ∈ (run (World.step sampleSettings) ⟨[], [], []⟩ sampleEuroRun).intents, Payable i := by
  obtain ⟨hsnapshots, hintents⟩ := snapshots_accepted (w := ⟨[], [], []⟩) sampleSettings (by simp) rfl sampleEuroRun
  refine ⟨?_, by decide +kernel, hintents⟩
  obtain ⟨made, hmade⟩ : ∃ made,
      Fx.createQuote (Fx.getRates "provider" sampleRates) ⟨false, 100, 0⟩ "EUR" "USD" 0 900 = .ok made := by
    cases h : Fx.createQuote (Fx.getRates "provider" sampleRates) ⟨false, 100, 0⟩ "EUR" "USD" 0 900 with
    | ok made => exact ⟨made, rfl⟩
    | error failure =>
      have hok : (Fx.createQuote (Fx.getRates "provider" sampleRates) ⟨false, 100, 0⟩ "EUR" "USD" 0 900).isOk = true := by
        decide +kernel
      rw [h] at hok
      cases hok
  have hamount : (⟨false, 100, 0⟩ : Decimal).value = 100 := by simp [Decimal.value]
  exact ⟨made, hmade, hamount ▸ hsnapshots _ _ _ _ _ _ made (fun _ => (And.left <| Fx.getRates_positive ·)) hmade⟩

end World

end Apartments.Quotes
