import Apartments.Lib.Traverse
import Apartments.Loyalty.RefundPlans
import Apartments.Reservations.Owed

/-!
# Refunds that the gateway can pay

A booking in riyals whose only collection is a card charge of whole halalas. Completed changes write down refunds inside or
outside the loyalty path, and the refund service sends them off. The gateway takes amounts of two decimals up to what is left
of the charge: the loyalty path divides nothing else, outside of it the percentages of the tiers and the prices have four
decimals, and `Payable` says which changes come to whole halalas that the charge still covers.
-/

namespace Apartments.Refunds

open Payments HyperPay Loyalty Settlements

/-- The test of `format_hyperpay_amount`. -/
def Whole (x : Dec) : Prop := Dec.quantize 2 x = x

instance (x : Dec) : Decidable (Whole x) := inferInstanceAs (Decidable (_ = _))

/-- A completed change with what the loyalty path reads; a departure settlement is written with two decimals. -/
structure Completion where
  settings : Settings
  moment : Time
  change : Change
  approved : Option Dec.Column
  pk : Uuid
  site : Site
  world : World
  refundPlans : List Documents.RefundPlan
  reservation : Uuid
  booking : Booking
  eligible : Bool
  terms : StayTerms
  contract : Except Refusal (Dec × Dec)
  cents : ∀ d, booking.loyaltyState.departureSettlement = some d → Dec.Exact 2 d.cashRefund

namespace Completion

def payout (k : Completion) : Payout where
  modification := k.change.pk
  completed := true
  reason := if k.change.cancellation then .cancellation else .modificationDecrease
  fresh := fun _ => k.pk

/-- The account on the changed reservation, beside the loyalty tables. -/
def purse (k : Completion) (a : Account) : Purse :=
  ⟨k.world, { a with stay := changedStay k.change a.stay }, k.refundPlans⟩

/-- The plan of the loyalty path. -/
def plan (k : Completion) (a : Account) : Except Refusal (Option Plan) :=
  if k.change.cancellation then cancellationPlan k.site k.eligible (k.purse a) k.booking
  else decreasePlan k.site k.eligible (k.purse a) k.booking k.terms k.contract k.change.total.val

end Completion

/-- `_record_refund_if_owed`, inside the loyalty path if there is a plan. -/
def recordRefund (a : Account) (k : Completion) : Account :=
  match k.plan a with
  | .error _ => a
  | .ok none => complete k.settings a k.moment k.change k.approved k.pk
  | .ok (some plan) =>
    if a.obligations.any (·.pk == k.pk) then a else (paidOut k.site k.payout plan k.reservation (k.purse a)).account

/-- Changes are completed, and refunds go through the refund service. -/
inductive Event
  | completed (k : Completion)
  | gateway (action : HyperPay.Action)

def progress (a : Account) : Event → Account
  | .completed k => recordRefund a k
  | .gateway action => if isRefundCall action then { a with gateway := a.gateway.step action } else a

/-- What the change asks to be returned comes to whole halalas, or to all that is left. -/
def AsksWhole (s : Settings) (a : Account) (moment : Time) (c : Change) (approved : Option Dec.Column) : Prop :=
  if !c.cancellation && c.ownerSettlement then
    match approved with
    | none => Whole c.total.val ∨ netPaid a ≤ c.total.val
    | some x => Whole x.val ∨ x.val < 0 ∨ netPaid a - c.total.val < x.val
  else Whole (askedFor s a moment c approved) ∨ a.left ≤ askedFor s a moment c approved

instance (s : Settings) (a : Account) (moment : Time) (c : Change) : (approved : Option Dec.Column) →
    Decidable (AsksWhole s a moment c approved)
  | none => by dsimp only [AsksWhole]; infer_instance
  | some _ => by dsimp only [AsksWhole]; infer_instance

/-- Outside the loyalty path a refund is computed while nothing is due, or asks for no more than is covered, and it asks for
whole halalas. -/
def Payable (a : Account) : Event → Prop
  | .completed k =>
    k.plan a = .ok none → Covered a (.complete k.settings k.moment k.change k.approved k.pk) ∧
      (refused a k.change k.pk ∨
        AsksWhole k.settings { a with stay := changedStay k.change a.stay } k.moment k.change k.approved)
  | .gateway _ => True

/-- Every refund that is due passes `_prepare` and `format_hyperpay_amount`. -/
def Sendable (a : Account) : Prop :=
  ∀ o ∈ a.obligations, o.status = .due → (∃ q, prepare a.desk o.pk = .ok (o, q)) ∧
    ∀ settings : HyperPay.Settings, settings.environment = "production" → (formatHyperpayAmount settings o.amount).isSome

/-- A verified charge of whole halalas. -/
structure Card (p : PaymentAttempt) : Prop where
  provider : p.provider = hyperpayProvider
  identified : p.providerPaymentId ≠ none ∧ p.providerPaymentId ≠ some ""
  verified : p.verifiedAt.isSome = true
  currency : p.currency = "SAR"
  original : p.modificationRequest = none
  whole : Dec.Exact 2 p.amount

/-- The only collection is the charge, up to its status, and the refunds are in whole halalas. -/
structure Clean (p : PaymentAttempt) (a : Account) : Prop where
  sar : a.stay.currency = "SAR"
  noReceipt : a.desk.offlinePaymentReceipt = none
  charge : ∀ q ∈ a.desk.payments, q.pk = p.pk → q = { p with status := q.status }
  only : ∀ q ∈ a.desk.payments, collectedStatus q = true → q.pk = p.pk
  rows : ∀ o ∈ a.obligations, 0 < o.amount ∧ Dec.Exact 2 o.amount ∧
    (o.calculation.paymentAttempt = none ∨ o.calculation.paymentAttempt = some p.pk)

section
variable {a : Account} {p p₀ q : PaymentAttempt} {c x : Dec} {o : RefundObligation} {pk : Uuid}
  {f : RefundObligation → RefundObligation} {g : Gateway}

theorem whole_iff : Whole x ↔ Dec.Exact 2 x :=
  ⟨fun h => h ▸ Dec.exact_quantize 2 x, fun h => h.quantize_eq⟩

theorem exact_stored (h : Dec.Exact 2 x) : Dec.Exact 4 x := by
  obtain ⟨n, rfl⟩ := h
  exact ⟨n * 100, by push_cast; ring⟩

/-! ### A refund that is due -/

theorem amount_le_due (h : Books c a) (ho : o ∈ a.obligations) (hdue : o.status = .due) : o.amount ≤ a.due := by
  have hone : Table.total (fun o' => decide (o'.pk = o.pk)) RefundObligation.amount a.obligations = o.amount := by
    have hrow : a.obligations.filter (fun o' => decide (o'.pk = o.pk)) =
        (Table.get RefundObligation.pk a.obligations o.pk).toList := Table.filter_eq_get h.inFlight.keyed o.pk
    have hget : Table.get RefundObligation.pk a.obligations o.pk = some o := Table.get_eq_of_mem h.inFlight.keyed ho
    rw [Table.total, hrow, hget]
    exact add_zero _
  rw [← hone]
  refine Table.total_le_total fun o' ho' => ?_
  have hnonneg := h.nonneg o' ho'
  by_cases hpk : o'.pk = o.pk
  · obtain rfl := Table.eq_of_mem_of_key h.inFlight.keyed ho' ho hpk
    simp [hdue]
  · rw [if_neg (by simpa using hpk)]
    split_ifs
    · exact hnonneg
    · exact le_rfl

/-- The row of the charge. -/
theorem Clean.row (h : Clean p a) (hb : Books c a) : ∃ q, a.desk.payments.filter collectedStatus = [q] ∧
    q = { p with status := q.status } ∧ a.desk.bookingIntent = some p.bookingIntent ∧ p.amount = c ∧
    (q.status = .refunded → p.amount ≤ a.transferred) := by
  rcases hb.paid with hr | ⟨p₀, hp₀, rfl⟩
  · obtain ⟨r, hr, -⟩ := hr.receipt
    rw [standaloneReceipt, h.noReceipt] at hr
    cases hr
  · obtain ⟨q, hq, hsame, -, -, hrefunded⟩ := hp₀.row
    have hmem := List.mem_filter.1 (hq ▸ List.mem_singleton_self q)
    have hself := h.charge q hmem.1 (h.only q hmem.1 hmem.2)
    have hamount : p₀.amount = p.amount := hsame.amount.symm.trans (congrArg (·.amount) hself)
    refine ⟨q, hq, hself, ?_, hamount.symm, hamount ▸ hrefunded⟩
    rw [hp₀.intent, ← hsame.bookingIntent]
    exact congrArg _ (congrArg (·.bookingIntent) hself)

/-- The payment that a refund is sent against is the charge. -/
theorem choosePayment_clean (hp : Card p) (h : Clean p a) (hb : Books c a) (ho : o ∈ a.obligations)
    (hleft : a.transferred < p.amount) : ∃ q, choosePayment a.desk p.bookingIntent o = some q ∧ q.amount = p.amount := by
  obtain ⟨q, hq, hself, -, -, hrefunded⟩ := h.row hb
  have hcollected := (List.mem_filter.1 (hq ▸ List.mem_singleton_self q)).2
  have hstatus : q.status ≠ .refunded := fun hst => absurd (hrefunded hst) (not_le.2 hleft)
  have hrefundable : refundable q = true := by
    simp only [collectedStatus, refundable, Bool.or_eq_true, beq_iff_eq] at hcollected ⊢
    exact hcollected.resolve_right hstatus
  have hprovider : q.provider = hyperpayProvider := (congrArg (·.provider) hself).trans hp.provider
  have hintent : q.bookingIntent = p.bookingIntent := congrArg (·.bookingIntent) hself
  have hcurrency : q.currency = o.currency :=
    (congrArg (·.currency) hself).trans (hp.currency.trans ((hb.currency o ho).trans h.sar).symm)
  -- what a filter of the refundable payments keeps is the charge
  have hfilter : ∀ φ : PaymentAttempt → Bool, (∀ x, φ x = true → refundable x = true) → φ q = true →
      a.desk.payments.filter φ = [q] := by
    intro φ hφ hone
    have hsub : a.desk.payments.filter φ = (a.desk.payments.filter collectedStatus).filter φ := by
      rw [List.filter_filter]
      refine List.filter_congr fun x _ => ?_
      cases hx : φ x with
      | false => rfl
      | true =>
        have hr := hφ x hx
        unfold refundable at hr
        unfold collectedStatus
        rw [hr]
        rfl
    rw [hsub, hq, List.filter_cons_of_pos hone, List.filter_nil]
  refine ⟨q, ?_, congrArg (·.amount) hself⟩
  unfold choosePayment
  rcases (h.rows o ho).2.2 with hnone | hsome
  · have horiginal : q.modificationRequest = none := (congrArg (·.modificationRequest) hself).trans hp.original
    have hidentified : q.providerPaymentId = p.providerPaymentId := congrArg (·.providerPaymentId) hself
    have hone := hfilter (fun x => x.bookingIntent == p.bookingIntent && x.modificationRequest == none &&
      x.provider == hyperpayProvider && refundable x && x.currency == o.currency && x.providerPaymentId != none &&
      x.providerPaymentId != some "") (fun x hx => by simp only [Bool.and_eq_true] at hx; exact hx.1.1.1.2)
      (by simp [hintent, horiginal, hprovider, hrefundable, hcurrency, hidentified, hp.identified.1, hp.identified.2])
    rw [hnone]
    dsimp only
    rw [hone]
    rfl
  · have hpk : q.pk = p.pk := congrArg (·.pk) hself
    have hverified : q.verifiedAt.isSome = true := (congrArg (·.verifiedAt.isSome) hself).trans hp.verified
    have hone := hfilter (fun x => x.pk == p.pk && x.bookingIntent == p.bookingIntent && x.provider == hyperpayProvider &&
      x.currency == o.currency && refundable x && x.verifiedAt.isSome)
      (fun x hx => by simp only [Bool.and_eq_true] at hx; exact hx.1.2)
      (by simp [hpk, hintent, hprovider, hrefundable, hcurrency, hverified])
    rw [hsome]
    dsimp only
    rw [← List.head?_filter, hone]
    rfl

/-- Where the charge covers what is owed, and that is in whole halalas, every refund that is due can be sent. -/
theorem Clean.sendable (hp : Card p) (h : Clean p a) (hb : Books c a) (hw : Within c a) : Sendable a := by
  intro o ho hdue
  obtain ⟨hpos, hexact, -⟩ := h.rows o ho
  obtain ⟨-, -, -, hintent, rfl, -⟩ := h.row hb
  have howed := owed_eq a
  have hle := amount_le_due hb ho hdue
  have htransferred := hb.transferred_le
  unfold Within at hw
  obtain ⟨q, hq, hamount⟩ := choosePayment_clean hp h hb ho (by linarith)
  refine ⟨⟨q, ?_⟩, fun settings hproduction => ?_⟩
  · have hrow : a.desk.obligation o.pk = some o := Table.get_eq_of_mem hb.inFlight.keyed ho
    have hprior : previouslyRefunded a.desk o q ≤ a.returned := by
      refine Table.total_le_total fun o' ho' => ?_
      have hnonneg := hb.nonneg o' ho'
      cases hout : outgoing o' with
      | true => split_ifs <;> simp_all
      | false => simp
    have hcovered : ¬q.amount - previouslyRefunded a.desk o q < o.amount := by
      rw [hamount]
      linarith
    have hnoReceipt : ¬a.desk.offlinePaymentReceipt.isSome = true := by
      rw [h.noReceipt]
      exact Bool.false_ne_true
    have hcurrency : ¬o.currency ≠ "SAR" := not_not.2 ((hb.currency o ho).trans h.sar)
    have havailable : ¬(o.status ≠ .due ∨ o.amount ≤ 0) := not_or.2 ⟨not_not.2 hdue, not_le.2 hpos⟩
    unfold prepare
    rw [hrow]
    dsimp only
    rw [if_neg havailable, if_neg hnoReceipt, if_neg hcurrency, hintent]
    dsimp only
    rw [hq]
    exact if_neg hcovered
  · have htest : ¬settings.environment = "test" := by
      rw [hproduction]
      decide
    unfold formatHyperpayAmount
    rw [if_neg htest, if_neg (not_lt.2 hpos.le), if_neg (not_not.2 hexact.quantize_eq)]
    rfl

/-! ### The refund service keeps the rows and the charge -/

theorem Clean.edit (h : Clean p a) (hd : g.desk = a.desk.modifyObligation pk f)
    (hf : ∀ o ∈ a.obligations, o.pk = pk →
      (f o).amount = o.amount ∧ (f o).calculation.paymentAttempt = o.calculation.paymentAttempt) :
    Clean p { a with gateway := g } := by
  obtain ⟨d, calls, checks, completions⟩ := g
  obtain rfl : d = a.desk.modifyObligation pk f := hd
  refine ⟨h.sar, h.noReceipt, h.charge, h.only, fun o ho => ?_⟩
  obtain ⟨o', ho', rfl⟩ := Table.mem_modify.1 ho
  obtain ⟨hpos, hexact, hallocated⟩ := h.rows o' ho'
  split_ifs with hpk
  · obtain ⟨hamount, hreceipt⟩ := hf o' ho' hpk
    rw [hamount, hreceipt]
    exact ⟨hpos, hexact, hallocated⟩
  · exact ⟨hpos, hexact, hallocated⟩

theorem Clean.calls (h : Clean p a) (hd : g.desk = a.desk) : Clean p { a with gateway := g } := by
  obtain ⟨d, calls, checks, completions⟩ := g
  obtain rfl : d = a.desk := hd
  exact ⟨h.sar, h.noReceipt, h.charge, h.only, h.rows⟩

theorem Clean.setStatus (h : Clean p a) (status : PaymentStatus) :
    Clean p { a with gateway.desk := a.desk.setPaymentStatus p.pk status } := by
  have hmem : ∀ q ∈ (a.desk.setPaymentStatus p.pk status).payments, ∃ q' ∈ a.desk.payments,
      (if q'.pk = p.pk then { q' with status := status } else q') = q := fun q hq => Table.mem_modify.1 hq
  refine ⟨h.sar, h.noReceipt, fun q hq hpk => ?_, fun q hq hcollected => ?_, h.rows⟩
  · obtain ⟨q', hq', rfl⟩ := hmem q hq
    split_ifs at hpk ⊢ with hsame
    · have hself := h.charge q' hq' hsame
      rw [hself]
    · exact h.charge q' hq' hpk
  · obtain ⟨q', hq', rfl⟩ := hmem q hq
    split_ifs at hcollected ⊢ with hsame
    · exact hsame
    · exact h.only q' hq' hcollected

theorem Clean.record (h : Clean p a) (hpos : 0 < o.amount) (hexact : Dec.Exact 2 o.amount)
    (hallocated : o.calculation.paymentAttempt = none ∨ o.calculation.paymentAttempt = some p.pk) :
    Clean p (a.record o) := by
  refine ⟨h.sar, h.noReceipt, h.charge, h.only, fun o' ho' => ?_⟩
  rcases List.mem_append.1 ho' with hold | hnew
  · exact h.rows o' hold
  · rw [List.mem_singleton.1 hnew]
    exact ⟨hpos, hexact, hallocated⟩

theorem Clean.pk_eq (h : Clean p a) (hby : ByPayment a p₀) : p₀.pk = p.pk := by
  obtain ⟨q, hq, hsame, -⟩ := hby.row
  have hmem := List.mem_filter.1 (hq ▸ List.mem_singleton_self q)
  exact hsame.pk.symm.trans (h.only q hmem.1 hmem.2)

theorem gateway_clean (h : Clean p a) (hb : Books c a) {action : HyperPay.Action} (hcall : isRefundCall action) :
    Clean p { a with gateway := a.gateway.step action } := by
  have hm := Gateway.step_move a.gateway action
  generalize a.gateway.step action = g at hm ⊢
  cases hm with
  | stay => exact h
  | @submitted settings refundId now o p' amount hprep ha =>
    have hprepared := prepare_eq_ok hprep
    have hrow : a.desk.obligation refundId = some o := hprepared.row
    refine h.edit rfl fun o' ho' hpk => ?_
    obtain rfl := Table.eq_of_mem_of_key hb.inFlight.keyed ho' (Desk.obligation_mem hrow) hpk
    exact ⟨rfl, rfl⟩
  | sent => exact h.calls rfl
  | unsent => exact h.edit rfl fun o _ _ => ⟨rfl, rfl⟩
  | @answered i reply operator now sub hi =>
    obtain ⟨o, ho⟩ := hb.inFlight.processing i _ hi (.inr rfl)
    have hs := settle_settled ho.row reply operator now
    generalize (settle sub reply operator now a.gateway.desk).1 = d at hs ⊢
    cases hs with
    | noted _ _ hf => exact h.edit rfl fun o _ _ => ⟨hf.amount o, hf.paymentAttempt o⟩
    | returned _ hf => exact h.edit rfl fun o _ _ => ⟨hf.amount o, hf.paymentAttempt o⟩
    | @confirmed f _ _ hf =>
      have hedited : Clean p { a with gateway := { a.gateway with
          desk := a.desk.modifyObligation sub.refund.pk f, calls := a.gateway.calls.set i ⟨sub, .answered reply⟩ } } :=
        h.edit rfl fun o _ _ => ⟨hf.amount o, hf.paymentAttempt o⟩
      -- the call was opened against the charge
      have hpk : sub.payment.pk = p.pk := by
        rcases hb.paid with hr | ⟨p₀, hp₀, -⟩
        · obtain ⟨r, hr, -⟩ := hr.receipt
          rw [standaloneReceipt, h.noReceipt] at hr
          cases hr
        · exact (hp₀.snapshot i ⟨sub, .sent⟩ hi (.inr rfl)).pk.trans (h.pk_eq hp₀)
      rw [hpk]
      exact hedited.setStatus _
  | recorded | completed | asked | dropped | processed => cases hcall

/-! ### Changes outside the loyalty path -/

variable {s : Settings} {moment : Time} {ch : Change} {approved : Option Dec.Column} {r : RefundComputation}

theorem Clean.exact_rows (h : Clean p a) : ∀ o ∈ a.obligations, Dec.Exact 2 o.amount := fun o ho => (h.rows o ho).2.1

theorem Clean.exact_left (h : Clean p a) (hb : Books c a) (hc : Dec.Exact 2 c) : Dec.Exact 2 a.left := by
  rw [Account.left, hb.collected_eq]
  exact hc.sub (exact_total h.exact_rows)

theorem Clean.exact_netPaid (h : Clean p a) (hb : Books c a) (hc : Dec.Exact 2 c) : Dec.Exact 2 (netPaid a) := by
  unfold netPaid
  refine Dec.Exact.max (Dec.Exact.sub ?_ (exact_total h.exact_rows)) Dec.exact_zero
  rcases verifiedCollections_eq hb with hv | hv
  · rw [hv]
    exact Dec.exact_zero
  · rw [hv]
    exact hc

/-- What is granted of whole halalas is in whole halalas. -/
theorem exact_granted (h : Clean p a) (hb : Books c a) (hw : Within c a) (hc : Dec.Exact 2 c)
    (hask : AsksWhole s a moment ch approved) (hpos : 0 < r.amount)
    (hr : (refundOwed s a moment ch).bind (approvedRefund approved) = some r) : Dec.Exact 2 r.amount := by
  have hleft := h.exact_left hb hc
  obtain ⟨r₀, hr₀, hr'⟩ := Option.bind_eq_some_iff.1 hr
  unfold AsksWhole at hask
  by_cases ho : (!ch.cancellation && ch.ownerSettlement) = true
  · rw [if_pos ho] at hask
    rw [Bool.and_eq_true, Bool.not_eq_true'] at ho
    have hamount : r₀.amount = netPaid a - ch.total.val := by
      unfold refundOwed at hr₀
      rw [ho.1, ho.2] at hr₀
      simp only [Bool.false_eq_true, if_false, if_true] at hr₀
      split_ifs at hr₀
      exact congrArg (·.amount) (Option.some.inj hr₀).symm
    cases approved with
    | none =>
      obtain rfl := Option.some.inj hr'
      rw [hamount] at hpos ⊢
      exact (h.exact_netPaid hb hc).sub (whole_iff.1 (hask.resolve_right (not_le.2 (sub_pos.1 hpos))))
    | some x =>
      simp only [approvedRefund] at hr'
      split_ifs at hr' with hrange
      obtain rfl := Option.some.inj hr'
      rw [not_or, hamount] at hrange
      rcases hask with hx | hx | hx
      · exact whole_iff.1 hx
      · exact absurd hx hrange.1
      · exact absurd hx hrange.2
  · rw [if_neg ho] at hask
    obtain ⟨hgranted, hnonneg⟩ := @granted_refundOwed a c s moment ch hb (hb.left_nonneg hw) (Bool.eq_false_iff.2 ho)
    have hr₀amount : r₀.amount = min (asked s a moment ch) a.left := by
      rw [← hgranted, hr₀]
      rfl
    cases approved with
    | none =>
      obtain rfl := Option.some.inj hr'
      rw [hr₀amount]
      have hasked : askedFor s a moment ch none = asked s a moment ch := rfl
      rw [hasked] at hask
      rcases hask with hwhole | hle
      · exact (whole_iff.1 hwhole).min hleft
      · rw [min_eq_right hle]
        exact hleft
    | some x =>
      simp only [approvedRefund] at hr'
      split_ifs at hr' with hrange
      obtain rfl := Option.some.inj hr'
      rw [not_or, not_lt, not_lt, hr₀amount, le_min_iff] at hrange
      have hasked : askedFor s a moment ch (some x) = x.val := if_pos hrange
      rw [hasked] at hask
      rcases hask with hwhole | hle
      · exact whole_iff.1 hwhole
      · have hx : x.val = a.left := le_antisymm hrange.2.2 hle
        show Dec.Exact 2 x.val
        rw [hx]
        exact hleft

theorem recordObligation_unallocated {reason : RefundReason} {modification : Uuid}
    (h : recordObligation a reason r modification pk = .ok (some o)) : o.calculation.paymentAttempt = none := by
  unfold recordObligation at h
  split at h
  · cases h
  split at h
  · cases h
  · cases h
    rfl

theorem recordRefundIfOwed_clean (h : Clean p a) (hb : Books c a) (hw : Within c a) (hc : Dec.Exact 2 c)
    (hask : AsksWhole s a moment ch approved) : Clean p (recordRefundIfOwed s a moment ch approved pk) := by
  unfold recordRefundIfOwed
  cases hr : (refundOwed s a moment ch).bind (approvedRefund approved) with
  | none => exact h
  | some r =>
    dsimp only
    cases hrecord : recordObligation a (if ch.cancellation then .cancellation else .modificationDecrease) r ch.pk pk with
    | error e => exact h
    | ok row =>
      cases row with
      | none => exact h
      | some o =>
        obtain ⟨hpos, -, -, hamount, -, -⟩ := recordObligation_ok hrecord
        refine h.record (hamount ▸ hpos) ?_ (.inl (recordObligation_unallocated hrecord))
        rw [hamount]
        exact exact_granted h hb hw hc hask hpos hr

theorem Clean.changed (h : Clean p a) (ch : Change) : Clean p { a with stay := changedStay ch a.stay } :=
  ⟨h.sar, h.noReceipt, h.charge, h.only, h.rows⟩

theorem complete_clean (h : Clean p a) (hb : Books c a) (hw : Within c a) (hc : Dec.Exact 2 c)
    (hask : refused a ch pk ∨ AsksWhole s { a with stay := changedStay ch a.stay } moment ch approved) :
    Clean p (complete s a moment ch approved pk) := by
  rw [complete_eq]
  by_cases hrefused : refused a ch pk = true
  · rw [if_pos hrefused]
    exact h
  · rw [if_neg hrefused]
    exact recordRefundIfOwed_clean (h.changed ch) (hb.changed ch) hw hc (hask.resolve_left hrefused)

/-! ### Changes inside the loyalty path -/

variable {k : Completion} {plan : Plan} {balances : List (PaymentAttempt × Dec)} {now : Time}

theorem Clean.keyed (h : Clean p a) (hb : Books c a) : (a.desk.payments.map (·.pk)).Nodup := by
  rcases hb.paid with hr | ⟨p₀, hp₀, -⟩
  · obtain ⟨r, hr, -⟩ := hr.receipt
    rw [standaloneReceipt, h.noReceipt] at hr
    cases hr
  · exact hp₀.keyed

/-- The charge is the only receipt, if it is one. -/
theorem receipts_clean (h : Clean p a) (hb : Books c a) :
    receipts a.desk = [] ∨ ∃ q, receipts a.desk = [q] ∧ q.pk = p.pk ∧ q.amount = c := by
  obtain ⟨q, hq, hself, -, hamount, -⟩ := h.row hb
  have hsub : a.desk.payments.filter (isReceipt a.desk) = [q].filter (isReceipt a.desk) := by
    rw [← hq, List.filter_filter]
    refine List.filter_congr fun x _ => ?_
    cases hx : isReceipt a.desk x with
    | false => rfl
    | true =>
      unfold isReceipt at hx
      simp only [Bool.and_eq_true] at hx
      rw [hx.1.1.2]
      rfl
  unfold receipts
  rw [hsub]
  cases hx : isReceipt a.desk q with
  | false =>
    left
    rw [List.filter_cons_of_neg (by rw [hx]; exact Bool.false_ne_true)]
    rfl
  | true =>
    right
    rw [List.filter_cons_of_pos hx]
    exact ⟨q, rfl, congrArg (·.pk) hself, (congrArg (·.amount) hself).trans hamount⟩

/-- At most the charge has a balance, and it covers no more than what is not owed. -/
theorem balances_clean (h : Clean p a) (hb : Books c a) (hw : Within c a) (hc : Dec.Exact 2 c)
    (hbalances : paymentBalances now a.desk = .ok balances) :
    balances = [] ∨ ∃ q v, balances = [(q, v)] ∧ q.pk = p.pk ∧ Dec.Exact 2 v ∧ a.owed + v ≤ c := by
  rw [paymentBalances, balancesFrom_eq_ok] at hbalances
  obtain ⟨-, hrest, rfl⟩ := hbalances
  rcases receipts_clean h hb with hnone | ⟨q, hone, hpk, hamount⟩
  · left
    rw [hnone]
    rfl
  · right
    have howed : a.owed = used a.desk q.pk + unassigned a.desk := by
      have hall : a.owed = _ := Settlements.owed_eq (d := a.desk) (h.keyed hb)
      rw [hone] at hall
      simpa using hall
    have hunassigned := unassigned_nonneg (d := a.desk) hb.nonneg
    have hexact : Dec.Exact 2 (free (used a.desk) q) :=
      (Dec.Exact.sub (hamount ▸ hc) (exact_total h.exact_rows)).max Dec.exact_zero
    have hfits : unassigned a.desk ≤ free (used a.desk) q := by
      rw [hone, List.map_singleton, Waterfall.rest, Waterfall.rest] at hrest
      exact min_eq_right_iff.1 (sub_eq_zero.1 hrest).symm
    rw [hone]
    refine ⟨q, _, rfl, hpk, ?_, ?_⟩
    · split_ifs
      · exact Dec.exact_zero
      · exact hexact.sub (hexact.min (exact_total h.exact_rows))
    · unfold Within at hw
      split_ifs
      · rw [add_zero]
        exact hw
      · rw [min_eq_right hfits]
        unfold free at hfits ⊢
        rcases le_total (q.amount - used a.desk q.pk) 0 with hneg | hpos
        · rw [max_eq_right hneg] at hfits ⊢
          linarith
        · rw [max_eq_left hpos]
          linarith

theorem refundSplit_exact {x y v w u : Dec} (h : refundSplit v w u = .ok (x, y)) : Dec.Exact 2 x := by
  obtain ⟨n, cash, points, -, -, -, -, rfl, -⟩ := refundSplit_ok h
  exact ⟨(Shares.cut n cash points : ℕ), by unfold amount; push_cast; norm_num⟩

/-- A plan is for whole halalas. -/
theorem plan_exact (h : Clean p a) (hb : Books c a) (hw : Within c a) (hc : Dec.Exact 2 c)
    (hplan : k.plan a = .ok (some plan)) : Dec.Exact 2 plan.cash := by
  have hcash : ∀ {cash points : Dec}, funding k.site.now (k.purse a).account.desk k.booking.loyaltyState.redemption =
      .ok (cash, points) → Dec.Exact 2 cash := by
    intro cash points hfunding
    obtain ⟨balances, hbalances, rfl, -⟩ := funding_ok hfunding
    have hbalances : paymentBalances k.site.now a.desk = .ok balances := hbalances
    rcases balances_clean h hb hw hc hbalances with rfl | ⟨q, v, rfl, -, hv, -⟩
    · exact Dec.exact_zero
    · simpa using hv
  unfold Completion.plan at hplan
  split_ifs at hplan with hcancellation
  · unfold cancellationPlan at hplan
    by_cases heligible : k.eligible = false
    · rw [if_pos heligible] at hplan
      cases hplan
    rw [if_neg heligible] at hplan
    simp only [bind_eq_ok] at hplan
    obtain ⟨⟨cash, points⟩, hfunding, total, -, hplan⟩ := hplan
    dsimp only at hplan
    by_cases harrived : k.site.effectiveArrival (k.purse a).world k.booking = true
    · rw [if_pos harrived] at hplan
      simp only [bind_eq_ok, found_eq_ok, raiseIf_eq_ok, exists_const] at hplan
      obtain ⟨departure, hdeparture, -, hplan⟩ := hplan
      obtain rfl := Option.some.inj (Except.ok.inj hplan)
      exact ((k.cents departure hdeparture).sub (exact_total h.exact_rows)).max Dec.exact_zero
    · rw [if_neg harrived] at hplan
      obtain rfl := Option.some.inj (Except.ok.inj hplan)
      exact hcash hfunding
  · unfold decreasePlan at hplan
    by_cases heligible : k.eligible = false
    · rw [if_pos heligible] at hplan
      cases hplan
    rw [if_neg heligible] at hplan
    simp only [bind_eq_ok] at hplan
    obtain ⟨⟨cash, points⟩, -, value, -, ⟨back, backPoints⟩, hsplit, hplan⟩ := hplan
    obtain rfl := Option.some.inj (Except.ok.inj hplan)
    exact refundSplit_exact hsplit

/-- The loop over one receipt writes nothing, or one row for what is taken. -/
theorem payReceipts_one {payout : Payout} {a' : Account} {rows : List RefundObligation} {v : Dec}
    (h : payReceipts payout plan x [(q, v)] a = .ok (a', rows)) : a' = a ∨ ∃ o, a' = a.record o ∧ 0 < min x v ∧
      o.amount = min x v ∧ o.pk = payout.fresh q.pk ∧ o.status = .due ∧ o.currency = "SAR" ∧
      o.calculation.hyperpayRefund = none ∧ o.calculation.paymentAttempt = some q.pk := by
  rw [payReceipts] at h
  dsimp only at h
  by_cases hskip : min x v ≤ 0
  · rw [if_pos hskip] at h
    obtain ⟨rfl, -⟩ := Prod.mk.inj (Except.ok.inj h)
    exact .inl rfl
  · rw [if_neg hskip] at h
    simp only [bind_eq_ok, found_eq_ok] at h
    obtain ⟨made, hmade, row, rfl, ⟨a'', rows'⟩, hpaid, h⟩ := h
    obtain ⟨rfl, -⟩ := Prod.mk.inj (Except.ok.inj h)
    obtain ⟨rfl, -⟩ := Prod.mk.inj (Except.ok.inj hpaid)
    cases hrecord : recordObligation a payout.reason ⟨min x v, "SAR", some plan.source⟩ payout.modification
        (payout.fresh q.pk) with
    | error e =>
      rw [hrecord] at hmade
      cases hmade
    | ok made =>
      rw [hrecord] at hmade
      cases hmade
      obtain ⟨hpos, hpk, hdue, hamount, hcurrency, -⟩ := recordObligation_ok hrecord
      exact .inr ⟨_, rfl, hpos, hamount, hpk, hdue, hcurrency, rfl, rfl⟩

/-- What the loyalty path writes down is covered by the charge. -/
theorem paidOut_clean (h : Clean p a) (hb : Books c a) (hw : Within c a) (hc : Dec.Exact 2 c)
    (hplan : k.plan a = .ok (some plan)) (hpk : a.obligations.any (·.pk == k.pk) = false) :
    Clean p (paidOut k.site k.payout plan k.reservation (k.purse a)).account ∧
      Books c (paidOut k.site k.payout plan k.reservation (k.purse a)).account ∧
      Within c (paidOut k.site k.payout plan k.reservation (k.purse a)).account := by
  have hsame : Clean p (k.purse a).account ∧ Books c (k.purse a).account ∧ Within c (k.purse a).account :=
    ⟨h.changed k.change, hb.changed k.change, hw⟩
  unfold paidOut
  cases hrecord : recordRefundPlan k.site k.payout plan k.reservation (k.purse a) with
  | error e => exact hsame
  | ok answer =>
    obtain ⟨o', rows⟩ := answer
    dsimp only
    unfold recordRefundPlan at hrecord
    simp only [bind_eq_ok, found_eq_ok, raiseIf_eq_ok, exists_const] at hrecord
    obtain ⟨-, -, b, -, -, hrecord⟩ := hrecord
    split_ifs at hrecord with hmarked
    · obtain ⟨rfl, -⟩ := Prod.mk.inj (Except.ok.inj hrecord)
      exact hsame
    simp only [bind_eq_ok, raiseIf_eq_ok, exists_const] at hrecord
    obtain ⟨world, -, balances, hbalances, hcovered, ⟨account, rows'⟩, hpaid, hrecord⟩ := hrecord
    obtain ⟨rfl, -⟩ := Prod.mk.inj (Except.ok.inj hrecord)
    dsimp only
    obtain ⟨hclean, hbooks, hwithin⟩ := hsame
    rcases balances_clean hclean hbooks hwithin hc hbalances with rfl | ⟨q, v, rfl, hq, hv, hfits⟩
    · obtain ⟨rfl, -⟩ := Prod.mk.inj (Except.ok.inj hpaid)
      exact ⟨hclean, hbooks, hwithin⟩
    · rcases payReceipts_one hpaid with rfl | ⟨o, rfl, hpos, hamount, hfresh, hdue, hcurrency, hnew, hallocated⟩
      · exact ⟨hclean, hbooks, hwithin⟩
      · have hexact : Dec.Exact 2 o.amount := hamount ▸ (plan_exact h hb hw hc hplan).min hv
        have hkey : (k.purse a).account.obligations.any (·.pk == o.pk) = false := by
          rw [hfresh]
          exact hpk
        rw [← hamount] at hpos
        refine ⟨hclean.record hpos hexact (.inr (hallocated.trans (congrArg some hq))), ?_, ?_⟩
        · exact hbooks.record hkey hdue hpos (exact_stored hexact) (hcurrency.trans hclean.sar.symm) hnew
        · rw [Within, owed_record _ hdue, hamount]
          have hmin : min plan.cash v ≤ v := min_le_right ..
          have howed : (k.purse a).account.owed = a.owed := rfl
          linarith

/-! ### Runs -/

/-- The refunds are in whole halalas and covered by the charge. -/
structure Steady (p : PaymentAttempt) (c : Dec) (a : Account) : Prop where
  clean : Clean p a
  books : Books c a
  within : Within c a

theorem recordRefund_steady (hc : Dec.Exact 2 c) (h : Steady p c a) (hok : Payable a (.completed k)) :
    Steady p c (recordRefund a k) := by
  unfold recordRefund
  cases hplan : k.plan a with
  | error e => exact h
  | ok answer =>
    cases answer with
    | none =>
      obtain ⟨hcovered, hask⟩ := hok hplan
      obtain ⟨hbooks, hwithin⟩ := complete_spec h.books h.within
      exact ⟨complete_clean h.clean h.books h.within hc hask, hbooks, hwithin.1 hcovered⟩
    | some plan =>
      dsimp only
      cases hpk : a.obligations.any (·.pk == k.pk) with
      | true => exact h
      | false =>
        obtain ⟨hclean, hbooks, hwithin⟩ := paidOut_clean h.clean h.books h.within hc hplan hpk
        exact ⟨hclean, hbooks, hwithin⟩

theorem progress_steady (hc : Dec.Exact 2 c) (e : Event) (h : Steady p c a) (hok : Payable a e) :
    Steady p c (progress a e) := by
  cases e with
  | completed k => exact recordRefund_steady hc h hok
  | gateway action =>
    dsimp only [progress]
    split_ifs with hcall
    · obtain ⟨hbooks, hle⟩ := gateway_books h.books hcall
      exact ⟨gateway_clean h.clean h.books hcall, hbooks, hle.trans h.within⟩
    · exact h

/-- The charge is the only collection, and nothing was refunded yet. -/
structure PaidByCard (p : PaymentAttempt) (a : Account) : Prop where
  once : PaidOnce a
  card : Card p
  sar : a.stay.currency = "SAR"
  noReceipt : a.desk.offlinePaymentReceipt = none
  charge : a.desk.payments.filter collectedStatus = [p]

theorem PaidByCard.steady (h : PaidByCard p a) : Steady p a.collected a ∧ Dec.Exact 2 a.collected := by
  have hmem : p ∈ a.desk.payments ∧ collectedStatus p = true :=
    List.mem_filter.1 (h.charge ▸ List.mem_singleton_self p)
  have hclean : Clean p a := by
    refine ⟨h.sar, h.noReceipt, fun q hq hpk => ?_, fun q hq hcollected => ?_, fun o ho => ?_⟩
    · obtain rfl := Table.eq_of_mem_of_key h.once.keyed hq hmem.1 hpk
      rfl
    · have hone : q ∈ a.desk.payments.filter collectedStatus := List.mem_filter.2 ⟨hq, hcollected⟩
      rw [h.charge, List.mem_singleton] at hone
      rw [hone]
    · rw [h.once.noObligations] at ho
      cases ho
  have hwithin : Within a.collected a := by
    have hzero : a.owed = 0 := by
      rw [Account.owed, h.once.noObligations]
      rfl
    rw [Within, hzero]
    exact h.once.nonneg
  obtain ⟨-, -, -, -, hamount, -⟩ := hclean.row h.once.books
  exact ⟨⟨hclean, h.once.books, hwithin⟩, hamount ▸ h.card.whole⟩

/-- While the changes outside the loyalty path ask for whole halalas that the charge covers, every refund that is due can be
sent. -/
theorem recorded_refunds_are_sendable (h : PaidByCard p a) {es : List Event} (hes : Machine.Meets progress Payable a es)
    (n : ℕ) : Sendable (Machine.run progress a (es.take n)) := by
  obtain ⟨hsteady, hwhole⟩ := h.steady
  have hrun : Steady p a.collected (Machine.run progress a (es.take n)) :=
    (hes.take n).inv (fun _ e h hok => progress_steady hwhole e h hok) hsteady
  exact hrun.clean.sendable h.card hrun.books hrun.within

end

/-! ### A price decrease, and a tier of a third -/

/-- A completion of a booking that is not in the loyalty programme. -/
def plainCompletion (settings : Settings) (change : Change) (pk : Uuid) : Completion where
  settings := settings
  moment := 10
  change := change
  approved := none
  pk := pk
  site := plainSite (.ok (stayFacts 100))
  world := emptyWorld
  refundPlans := []
  reservation := stayPk
  booking := newBooking stayPk 5 (confirmedBy 1)
  eligible := false
  terms := ⟨100, 104, 100, "SAR", none⟩
  contract := .ok (100, 100)
  cents := nofun

theorem cardPayment_card : Card cardPayment where
  provider := rfl
  identified := by decide
  verified := rfl
  currency := rfl
  original := rfl
  whole := ⟨10000, by decide +kernel⟩

theorem paidAccount_paidByCard : PaidByCard cardPayment paidAccount where
  once := paidAccount_paidOnce
  card := cardPayment_card
  sar := rfl
  noReceipt := rfl
  charge := rfl

def shortened : Event := .completed (plainCompletion flexibleSettings decrease refundPk)

theorem recorded_refunds_are_sendable_decrease :
    (progress paidAccount shortened).obligations.map (fun o => (o.amount, o.status)) = [(30, .due)] ∧
      Sendable (progress paidAccount shortened) := by
  have hpayable : Machine.Meets progress Payable paidAccount [shortened] :=
    ⟨fun _ => ⟨by decide +kernel, .inr (by decide +kernel)⟩, trivial⟩
  exact ⟨by decide +kernel, recorded_refunds_are_sendable paidAccount_paidByCard hpayable 1⟩

/-- A charge of 99.99, of which a tier returns 33.33 %. -/
def thirdCharge : PaymentAttempt := { cardPayment with amount := 9999 / 100 }

def thirdAccount : Account :=
  ⟨{ stayOf100 with totalPrice := 9999 / 100 }, ⟨⟨some bookingPk, none, [thirdCharge], []⟩, [], [], []⟩⟩

def thirdSettings : Settings := ⟨false, [⟨"flexible", 0, 3333 / 100, true, true, by norm_num⟩]⟩

def thirdCancellation : Change :=
  { fullCancellation with
    total := ⟨9999 / 100, 999900, by norm_num⟩
    nonneg := by norm_num }

def returnsThird : Event := .completed (plainCompletion thirdSettings thirdCancellation refundPk)

theorem thirdAccount_paidByCard : PaidByCard thirdCharge thirdAccount where
  once :=
    { noCalls := rfl
      noObligations := rfl
      exact := ⟨999900, by decide +kernel⟩
      nonneg := by decide +kernel
      keyed := by decide
      paid := .inr ⟨rfl, thirdCharge, rfl, rfl, rfl, rfl, rfl⟩ }
  card := { cardPayment_card with whole := ⟨9999, by decide +kernel⟩ }
  sar := rfl
  noReceipt := rfl
  charge := rfl

/-- The tier returns 33.3267, which the gateway does not take. -/
theorem tier_refund_not_sendable :
    PaidByCard thirdCharge thirdAccount ∧
      (progress thirdAccount returnsThird).obligations.map (fun o => (o.amount, o.status)) = [(333267 / 10000, .due)] ∧
      ¬Sendable (progress thirdAccount returnsThird) := by
  refine ⟨thirdAccount_paidByCard, by decide +kernel, fun h => ?_⟩
  have hrefused : ∀ o ∈ (progress thirdAccount returnsThird).obligations,
      o.status = .due ∧ formatHyperpayAmount liveSettings o.amount = none := by decide +kernel
  have hsome : (progress thirdAccount returnsThird).obligations ≠ [] := by decide +kernel
  obtain ⟨o, ho⟩ := List.exists_mem_of_ne_nil _ hsome
  obtain ⟨hdue, hnone⟩ := hrefused o ho
  have hformat := (h o ho hdue).2 liveSettings rfl
  rw [hnone] at hformat
  cases hformat

end Apartments.Refunds
