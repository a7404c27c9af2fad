import Apartments.Reservations.Owed

/-!
# What a cancelled booking is owed under the flexible policy

Money is collected by payment attempts of every kind and by an offline receipt, each in its own currency.
`_record_refund_if_owed` computes the refund of a cancellation from one of these collections, `lookedUp`, and records
it in the currency of the listing. `collectedIn` and `owedIn` are the sums over all of them; the refund is full when
the two agree in every currency.
-/

namespace Apartments.Refunds

open Payments HyperPay

namespace Account

/-- Everything collected for the booking in a currency: by its attempts of any kind and by a receipt of its own. -/
def collectedIn (a : Account) (currency : String) : Dec :=
  Table.total (fun p => a.desk.bookingIntent == some p.bookingIntent && collectedStatus p && p.currency == currency)
      PaymentAttempt.amount a.desk.payments +
    ((standaloneReceipt a).filter (·.currency == currency)).elim 0 (·.amount)

/-- The obligations in a currency that are due, processing or transferred. -/
def owedIn (a : Account) (currency : String) : Dec :=
  Table.total (fun o => o.status != .cancelled && o.currency == currency) RefundObligation.amount a.obligations

/-- Everything collected is owed, no more and no less. -/
def FullyOwed (a : Account) : Prop := ∀ currency, a.owedIn currency = a.collectedIn currency

/-- The amounts that the columns of the tables hold. -/
structure Stored (a : Account) : Prop where
  payments : ∀ p ∈ a.desk.payments, Dec.Exact 4 p.amount
  receipt : ∀ r, standaloneReceipt a = some r → Dec.Exact 4 r.amount
  obligations : ∀ o ∈ a.obligations, Dec.Exact 4 o.amount

end Account

/-- A collection, and what of it has been sent back. -/
structure Collection where
  amount : Dec
  against : Dec
deriving DecidableEq

/-- The one collection a cancellation is refunded from: a receipt without an attempt, or else the newest collected
attempt in the currency of the listing that was not made for a change. -/
def lookedUp (a : Account) : Option Collection :=
  match standaloneReceipt a with
  | some r =>
    some ⟨r.amount, Table.total (fun o => o.currency == r.currency && outgoing o) RefundObligation.amount a.obligations⟩
  | none =>
    match a.desk.bookingIntent.bind (originalPayment a) with
    | none => none
    | some p =>
      if p.status = .refunded then none
      else
        some ⟨p.amount, Table.total (fun o => o.currency == a.stay.currency && outgoing o && countsAgainst p o)
          RefundObligation.amount a.obligations⟩

/-- The collection that is looked up, if anything of it is left. -/
def open? (a : Account) : Option Collection := (lookedUp a).filter fun c => decide (c.against < c.amount)

/-- In the currency of the listing, what was collected besides the collection looked up is what is owed besides the
refunds sent against it; an amount that the owner approved makes up the difference itself. -/
def ListingMatched (a : Account) (approved : Option Dec.Column) : Prop :=
  match open? a, approved with
  | none, _ => a.owedIn a.stay.currency = a.collectedIn a.stay.currency
  | some c, none => a.collectedIn a.stay.currency - c.amount = a.owedIn a.stay.currency - c.against
  | some c, some x =>
    a.collectedIn a.stay.currency =
      a.owedIn a.stay.currency + if 0 ≤ x.val ∧ x.val ≤ c.amount - c.against then x.val else 0

instance (a : Account) (approved : Option Dec.Column) : Decidable (ListingMatched a approved) := by
  unfold ListingMatched
  split <;> infer_instance

/-- There is nothing to return besides the collection that is looked up. -/
def NothingElse (a : Account) (approved : Option Dec.Column) : Prop :=
  (∀ currency, currency ≠ a.stay.currency → a.owedIn currency = a.collectedIn currency) ∧ ListingMatched a approved

/-- What is left of a collection. -/
def Collection.left (c : Collection) : Dec := max (c.amount - c.against) 0

variable {s : Settings} {a : Account} {moment : Time} {c : Change} {approved : Option Dec.Column} {pk : Uuid}

theorem successful_getD (a : Account) : (successfulOriginalPaymentAmount a).getD 0 = (lookedUp a).elim 0 Collection.left := by
  unfold successfulOriginalPaymentAmount lookedUp
  cases standaloneReceipt a with
  | some r => rfl
  | none =>
    cases hp : a.desk.bookingIntent.bind (originalPayment a) with
    | none => rfl
    | some p => by_cases hs : p.status = .refunded <;> simp [hs, Collection.left]

theorem mem_of_originalPayment {intent : Uuid} {p : PaymentAttempt} (h : originalPayment a intent = some p) :
    p ∈ a.desk.payments :=
  (List.mem_filter.1 (Table.mem_of_first h)).1

/-- What is left of the collection is an amount of a column. -/
theorem exact_left (h : a.Stored) : Dec.Exact 4 ((lookedUp a).elim 0 Collection.left) := by
  have hleft : ∀ x y, Dec.Exact 4 x → Dec.Exact 4 y → Dec.Exact 4 (Collection.left ⟨x, y⟩) := fun x y hx hy =>
    (hx.sub hy).max Dec.exact_zero
  unfold lookedUp
  cases hr : standaloneReceipt a with
  | some r => exact hleft _ _ (h.receipt r hr) (exact_total h.obligations)
  | none =>
    cases hp : a.desk.bookingIntent.bind (originalPayment a) with
    | none => exact Dec.exact_zero
    | some p =>
      obtain ⟨intent, -, hi⟩ := Option.bind_eq_some_iff.1 hp
      by_cases hs : p.status = .refunded
      · simpa [hs] using Dec.exact_zero
      · simpa [hs] using hleft _ _ (h.payments p (mem_of_originalPayment hi)) (exact_total h.obligations)

/-- The refund of a cancellation in time is what is left of the collection looked up. -/
theorem cancellationRefund_flexible (hs : s.launchFlexibleCancellation = true) (hp : a.stay.cancellationPolicy.isSome)
    (hm : moment < a.stay.arrival) (h : a.Stored) :
    ∃ source, cancellationRefund s a moment = some ⟨(lookedUp a).elim 0 Collection.left, a.stay.currency, source⟩ := by
  have hnone : a.stay.cancellationPolicy.isNone = false := by simpa using hp
  have hleft := exact_left h
  rw [← successful_getD] at hleft ⊢
  unfold cancellationRefund
  rw [if_pos hs, if_neg (by simp [hnone])]
  cases ho : successfulOriginalPaymentAmount a with
  | none => exact ⟨none, rfl⟩
  | some original =>
    rw [ho, Option.getD_some] at hleft
    simp only [if_pos hm, Option.getD_some, hleft.quantize_eq]
    exact ⟨_, rfl⟩

theorem owedIn_record (o : RefundObligation) (currency : String) :
    (a.record o).owedIn currency = a.owedIn currency + if o.status != .cancelled && o.currency == currency then o.amount else 0 := by
  simp only [Account.owedIn, Account.record, Account.obligations, Table.total_append, Table.total_cons, Table.total_nil, add_zero]

theorem left_nonneg (a : Account) : 0 ≤ (lookedUp a).elim 0 Collection.left := by
  cases lookedUp a with
  | none => exact le_rfl
  | some c => exact le_max_right _ _

/-- A refund of no more than what is left is recorded in full; nothing else changes. -/
theorem record_owedIn {reason : RefundReason} {r : RefundComputation} {modification : Uuid}
    (hr : 0 ≤ r.amount) (hle : r.amount ≤ (successfulOriginalPaymentAmount a).getD 0) (currency : String) :
    (match recordObligation a reason r modification pk with
      | .ok (some o) => a.record o
      | _ => a).owedIn currency = a.owedIn currency + if r.currency = currency then r.amount else 0 := by
  unfold recordObligation
  by_cases h0 : r.amount ≤ 0
  · have : r.amount = 0 := le_antisymm h0 hr
    simp [this]
  · rw [if_neg h0, if_neg fun h => absurd hle (not_le.2 h.2)]
    simp [owedIn_record]

/-- What the recorded obligation amounts to. -/
def recordedAmount (a : Account) : Option Dec.Column → Dec
  | none => (lookedUp a).elim 0 Collection.left
  | some x => if 0 ≤ x.val ∧ x.val ≤ (lookedUp a).elim 0 Collection.left then x.val else 0

theorem recordRefundIfOwed_owedIn (hs : s.launchFlexibleCancellation = true) (hc : c.cancellation = true)
    (hp : a.stay.cancellationPolicy.isSome) (hm : moment < a.stay.arrival) (h : a.Stored) (currency : String) :
    (recordRefundIfOwed s a moment c approved pk).owedIn currency =
      a.owedIn currency + if a.stay.currency = currency then recordedAmount a approved else 0 := by
  obtain ⟨source, hr⟩ := cancellationRefund_flexible hs hp hm h
  unfold recordRefundIfOwed refundOwed
  rw [if_pos hc, hr, Option.bind_some]
  cases approved with
  | none =>
    simp only [approvedRefund]
    exact record_owedIn (left_nonneg a) (successful_getD a).ge currency
  | some x =>
    simp only [approvedRefund, recordedAmount]
    by_cases hx : 0 ≤ x.val ∧ x.val ≤ (lookedUp a).elim 0 Collection.left
    · rw [if_neg (by rintro (h | h) <;> linarith [hx.1, hx.2]), if_pos hx]
      exact record_owedIn hx.1 (hx.2.trans (successful_getD a).ge) currency
    · rw [if_neg hx, ite_self, add_zero, if_pos]
      by_contra hn
      rw [not_or, not_lt, not_lt] at hn
      exact hx hn

/-- A refund is recorded behind the obligations, so no collection changes. -/
theorem recordRefundIfOwed_collectedIn (s : Settings) (a : Account) (moment : Time) (c : Change)
    (approved : Option Dec.Column) (pk : Uuid) (currency : String) :
    (recordRefundIfOwed s a moment c approved pk).collectedIn currency = a.collectedIn currency := by
  unfold recordRefundIfOwed
  split
  · rfl
  · split <;> rfl

theorem open?_none (h : open? a = none) : (lookedUp a).elim 0 Collection.left = 0 := by
  unfold open? at h
  cases hl : lookedUp a with
  | none => rfl
  | some c =>
    rw [hl, Option.filter_eq_none_iff] at h
    have hle := h c rfl
    simp only [decide_eq_true_eq, not_lt] at hle
    exact max_eq_right (by linarith)

theorem open?_some {c : Collection} (h : open? a = some c) :
    (lookedUp a).elim 0 Collection.left = c.amount - c.against ∧ c.against < c.amount := by
  obtain ⟨hl, hlt⟩ := Option.filter_eq_some_iff.1 h
  rw [decide_eq_true_eq] at hlt
  rw [hl]
  exact ⟨max_eq_left (by linarith), hlt⟩

/-- The recorded amount fills up what is not owed yet in the currency of the listing. -/
theorem recordedAmount_fills (a : Account) (approved : Option Dec.Column) :
    a.owedIn a.stay.currency + recordedAmount a approved = a.collectedIn a.stay.currency ↔
      ListingMatched a approved := by
  unfold ListingMatched
  cases ho : open? a with
  | none =>
    have hz : recordedAmount a approved = 0 := by
      cases approved with
      | none => exact open?_none ho
      | some x =>
        rw [recordedAmount, open?_none ho]
        split
        · linarith
        · rfl
    rw [hz, add_zero]
  | some c =>
    obtain ⟨hleft, -⟩ := open?_some ho
    cases approved with
    | none =>
      simp only [recordedAmount, hleft]
      constructor <;> intro h <;> linarith
    | some x =>
      simp only [recordedAmount, hleft]
      exact eq_comm

theorem paidAccount_stored : paidAccount.Stored where
  payments p hp := by
    obtain rfl := List.mem_singleton.1 hp
    exact ⟨1000000, by norm_num [cardPayment]⟩
  receipt r hr := by cases hr
  obligations o ho := by cases ho

/-- The listing is priced in dollars; the card was charged in riyals, as every gateway payment is. -/
def dollarAccount : Account := { paidAccount with stay := ⟨2667 / 100, "USD", some "flexible", 1000000, none⟩ }

/-- The stay was extended, and the extension paid. -/
def extendedAccount : Account :=
  { paidAccount with
    stay := ⟨140, "SAR", some "flexible", 1000000, none⟩
    gateway.desk.payments := [cardPayment,
      { cardPayment with pk := changePk, modificationRequest := some changePk, amount := 40, verifiedAt := some 5 }] }

end Apartments.Refunds
