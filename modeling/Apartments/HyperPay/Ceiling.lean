import Apartments.HyperPay.InFlight
import Mathlib.Tactic.Linarith

/-!
# No receipt is refunded beyond its amount

`refundTotal φ d p` adds the obligations attributed to the payment `p` whose status satisfies `φ`. The
invariant `Ceiling` keeps the outgoing total of every payment within its amount. What carries it: an outgoing
obligation was submitted against the provider id of one payment, which no other payment has, and if it is
allocated to a receipt it is allocated to that one (`sent`). So submitting a refund raises the total of the
payment it was checked against and of no other.
-/

namespace Apartments.HyperPay

open Payments

/-- The amounts attributed to `p` of the obligations in a status that satisfies `φ`. -/
def refundTotal (φ : RefundStatus → Bool) (d : Desk) (p : PaymentAttempt) : Dec :=
  Table.total (fun o => φ o.status && attributed p o) RefundObligation.amount d.obligations

def isOutgoing (st : RefundStatus) : Bool := st == .processing || st == .transferred

/-- `PROCESSING` and `TRANSFERRED` refunds of a payment. -/
def outgoingTotal (d : Desk) (p : PaymentAttempt) : Dec := refundTotal isOutgoing d p

/-- Confirmed refunds of a payment. -/
def confirmedTotal (d : Desk) (p : PaymentAttempt) : Dec := refundTotal (· == .transferred) d p

theorem Edits.attributed {f : RefundObligation → RefundObligation} {st : RefundStatus → RefundStatus}
    (hf : Edits f st) (p : PaymentAttempt) (o : RefundObligation) :
    HyperPay.attributed p (f o) = HyperPay.attributed p o := by
  simp only [HyperPay.attributed, hf.original, hf.paymentAttempt]

section
variable {d : Desk} {pk : Uuid} {o : RefundObligation} {f : RefundObligation → RefundObligation}
  {st : RefundStatus → RefundStatus} {φ : RefundStatus → Bool} {p q : PaymentAttempt}

theorem refundTotal_edits (hnd : (d.obligations.map (·.pk)).Nodup) (hrow : d.obligation pk = some o)
    (hf : Edits f st) : refundTotal φ (d.modifyObligation pk f) p =
      refundTotal φ d p - (if φ o.status && attributed p o then o.amount else 0) +
        if φ (st o.status) && attributed p o then o.amount else 0 := by
  have h := Table.total_modify (p := fun o => φ o.status && attributed p o) (v := RefundObligation.amount)
    (f := f) hnd hrow
  simp only [hf.attributed, hf.status, hf.amount] at h
  exact h

/-- An edit that keeps every status in or out of `φ` keeps the totals. -/
theorem refundTotal_edits_eq (hnd : (d.obligations.map (·.pk)).Nodup) (hrow : d.obligation pk = some o)
    (hf : Edits f st) (hφ : φ (st o.status) = φ o.status) :
    refundTotal φ (d.modifyObligation pk f) p = refundTotal φ d p := by
  rw [refundTotal_edits hnd hrow hf, hφ]
  ring

theorem refundTotal_congr (hpk : p.pk = q.pk) (hid : p.providerPaymentId = q.providerPaymentId) :
    refundTotal φ d p = refundTotal φ d q := by
  simp only [refundTotal, attributed, hpk, hid]

theorem refundTotal_append (hφ : φ o.status = false) :
    refundTotal φ { d with obligations := d.obligations ++ [o] } p = refundTotal φ d p := by
  simp [refundTotal, Table.total_append, Table.total_cons, hφ]

end

/-- The same receipt: what a refund reads of a payment, its status apart. -/
structure SameReceipt (p q : PaymentAttempt) : Prop where
  pk : p.pk = q.pk
  providerPaymentId : p.providerPaymentId = q.providerPaymentId
  amount : p.amount = q.amount
  bookingIntent : p.bookingIntent = q.bookingIntent

/-- What holds of a reservation whose refunds have all gone through the refund service. -/
structure Ceiling (g : Gateway) : Prop where
  inFlight : InFlight g
  keyed : (g.desk.payments.map (·.pk)).Nodup
  unique : ∀ p ∈ g.desk.payments, ∀ q ∈ g.desk.payments,
    p.providerPaymentId = q.providerPaymentId → p.providerPaymentId ≠ none → p = q
  allocated : ∀ o ∈ g.desk.obligations, ∀ p ∈ g.desk.payments,
    o.calculation.paymentAttempt = some p.pk → p.providerPaymentId ≠ none
  /-- An open call holds the row of a payment, its status apart. -/
  snapshot : ∀ (i : ℕ) (c : Call), g.calls[i]? = some c → c.isOpen →
    g.desk.bookingIntent = some c.submission.payment.bookingIntent ∧
      ∃ p ∈ g.desk.payments, SameReceipt p c.submission.payment
  /-- An outgoing obligation was submitted against the payment it is allocated to, if it is allocated. -/
  sent : ∀ o ∈ g.desk.obligations, outgoing o → o.calculation.detail.originalPaymentId ≠ none ∧
    ∀ p ∈ g.desk.payments, o.calculation.paymentAttempt = some p.pk →
      o.calculation.detail.originalPaymentId = p.providerPaymentId
  ceiling : ∀ p ∈ g.desk.payments, outgoingTotal g.desk p ≤ p.amount
  refunded : ∀ p ∈ g.desk.payments, p.status = .refunded → p.amount ≤ confirmedTotal g.desk p

namespace Ceiling
variable {g g' : Gateway}

/-- For an outgoing obligation the provider id decides the attribution. -/
theorem attributed_iff (h : Ceiling g) {o : RefundObligation} {p : PaymentAttempt} (ho : o ∈ g.desk.obligations)
    (hout : outgoing o) (hp : p ∈ g.desk.payments) :
    attributed p o = (o.calculation.detail.originalPaymentId == p.providerPaymentId) := by
  unfold attributed
  by_cases hpa : o.calculation.paymentAttempt = some p.pk
  · simp [(h.sent o ho hout).2 p hp hpa]
  · simp [hpa]

/-- The code's sum of confirmed refunds is the confirmed total of the payment. -/
theorem totalConfirmed_eq (h : Ceiling g) {p q : PaymentAttempt} (hp : p ∈ g.desk.payments) (hpq : SameReceipt p q)
    (hintent : g.desk.bookingIntent = some q.bookingIntent) : totalConfirmed g.desk q = confirmedTotal g.desk p := by
  simp only [totalConfirmed, hintent, if_true, confirmedTotal, refundTotal]
  refine Table.total_congr fun o ho => ?_
  by_cases hs : o.status = .transferred
  · rw [h.attributed_iff ho (by simp [outgoing, hs]) hp, hpq.providerPaymentId]
  · simp [hs]

/-- Closing a call: its obligation, which was outgoing, may take any status. -/
theorem close (h : Ceiling g) {i : ℕ} {s : Submission} {phase : Phase} {c : Call} {o : RefundObligation}
    {f : RefundObligation → RefundObligation} {st : RefundStatus → RefundStatus}
    (hi : g.calls[i]? = some ⟨s, phase⟩) (ho : Call.isOpen ⟨s, phase⟩) (hc : ¬ c.isOpen)
    (hrow : Processing g.desk s o) (hf : Edits f st) :
    Ceiling { g with desk := g.desk.modifyObligation s.refund.pk f, calls := g.calls.set i c } := by
  have hmem : ∀ o' ∈ (g.desk.modifyObligation s.refund.pk f).obligations, ∃ o₀ ∈ g.desk.obligations,
      o' = f o₀ ∧ o₀ = o ∨ o' = o₀ := by
    intro o' ho'
    obtain ⟨o₀, ho₀, rfl⟩ := Table.mem_modify.1 ho'
    refine ⟨o₀, ho₀, ?_⟩
    split
    · rename_i hpk
      refine .inl ⟨rfl, Table.eq_of_mem_of_key h.inFlight.keyed ho₀ (Desk.obligation_mem hrow.row) ?_⟩
      rw [hpk, Desk.obligation_pk hrow.row]
    · exact .inr rfl
  have hout : outgoing o := by simp [outgoing, hrow.status]
  have hpos := hrow.positive
  refine ⟨h.inFlight.close hi ho hc hf.pk rfl, h.keyed, h.unique, ?_, ?_, ?_, ?_, ?_⟩
  · intro o' ho' p hp hpa
    obtain ⟨o₀, ho₀, ⟨rfl, -⟩ | rfl⟩ := hmem o' ho'
    · exact h.allocated o₀ ho₀ p hp (by rwa [hf.paymentAttempt] at hpa)
    · exact h.allocated _ ho₀ p hp hpa
  · intro j c' hj ho'
    exact h.snapshot j c' (open_of_set hc hj ho').2 ho'
  · intro o' ho' hout'
    obtain ⟨o₀, ho₀, ⟨rfl, rfl⟩ | rfl⟩ := hmem o' ho'
    · rw [hf.original, hf.paymentAttempt]
      exact h.sent o₀ ho₀ hout
    · exact h.sent _ ho₀ hout'
  · intro p hp
    have hle := h.ceiling p hp
    have hstep := refundTotal_edits (φ := isOutgoing) (p := p) h.inFlight.keyed hrow.row hf
    simp only [outgoingTotal] at hle ⊢
    rw [hstep, hrow.status]
    cases attributed p o <;> cases isOutgoing (st .processing) <;> simp [isOutgoing] <;> linarith
  · intro p hp hs
    have hle := h.refunded p hp hs
    have hstep := refundTotal_edits (φ := (· == .transferred)) (p := p) h.inFlight.keyed hrow.row hf
    simp only [confirmedTotal] at hle ⊢
    rw [hstep, hrow.status]
    cases attributed p o <;> by_cases ht : st .processing = .transferred <;> simp [ht] <;> linarith

/-- Setting the status of a payment, to `REFUNDED` only when the confirmed refunds reach its amount. -/
theorem setStatus (h : Ceiling g) {pk : Uuid} {status : PaymentStatus}
    (hs : status = .refunded → ∀ p ∈ g.desk.payments, p.pk = pk → p.amount ≤ confirmedTotal g.desk p) :
    Ceiling { g with desk := g.desk.setPaymentStatus pk status } := by
  have hmem : ∀ p' ∈ (g.desk.setPaymentStatus pk status).payments,
      ∃ p ∈ g.desk.payments, SameReceipt p p' ∧ (p'.status = .refunded → p.amount ≤ confirmedTotal g.desk p) := by
    intro p' hp'
    obtain ⟨p, hp, rfl⟩ := Table.mem_modify.1 hp'
    refine ⟨p, hp, ?_⟩
    split
    · exact ⟨⟨rfl, rfl, rfl, rfl⟩, fun hst => hs hst p hp (by assumption)⟩
    · exact ⟨⟨rfl, rfl, rfl, rfl⟩, h.refunded p hp⟩
  have hkeyed : ((g.desk.setPaymentStatus pk status).payments.map (·.pk)).Nodup := by
    rw [Desk.setPaymentStatus, Desk.pks_modifyPayment fun _ => by rfl]; exact h.keyed
  refine ⟨h.inFlight.frame h.inFlight.keyed fun i c hc ho => ⟨c, hc, ho, rfl, rfl⟩, hkeyed, ?_, ?_, ?_, ?_, ?_, ?_⟩
  · intro p' hp' q' hq' hid hne
    obtain ⟨p, hp, hsp, -⟩ := hmem p' hp'
    obtain ⟨q, hq, hsq, -⟩ := hmem q' hq'
    have hpq := h.unique p hp q hq (by rw [hsp.providerPaymentId, hsq.providerPaymentId, hid])
      (by rwa [hsp.providerPaymentId])
    exact Table.eq_of_mem_of_key hkeyed hp' hq' (by rw [← hsp.pk, ← hsq.pk, hpq])
  · intro o ho p' hp' hpa
    obtain ⟨p, hp, hsp, -⟩ := hmem p' hp'
    rw [← hsp.providerPaymentId]
    exact h.allocated o ho p hp (by rwa [hsp.pk])
  · intro i c hc ho
    obtain ⟨hintent, p, hp, hsp⟩ := h.snapshot i c hc ho
    refine ⟨hintent, if p.pk = pk then { p with status := status } else p, ?_, ?_⟩
    · exact Table.mem_modify.2 ⟨p, hp, rfl⟩
    · split <;> exact ⟨hsp.pk, hsp.providerPaymentId, hsp.amount, hsp.bookingIntent⟩
  · intro o ho hout
    refine ⟨(h.sent o ho hout).1, fun p' hp' hpa => ?_⟩
    obtain ⟨p, hp, hsp, -⟩ := hmem p' hp'
    rw [← hsp.providerPaymentId]
    exact (h.sent o ho hout).2 p hp (by rwa [hsp.pk])
  · intro p' hp'
    obtain ⟨p, hp, hsp, -⟩ := hmem p' hp'
    rw [← hsp.amount, outgoingTotal, ← refundTotal_congr hsp.pk hsp.providerPaymentId]
    exact h.ceiling p hp
  · intro p' hp' hst
    obtain ⟨p, hp, hsp, hle⟩ := hmem p' hp'
    rw [← hsp.amount, confirmedTotal, ← refundTotal_congr hsp.pk hsp.providerPaymentId]
    exact hle hst

theorem submitted (h : Ceiling g) {settings : Settings} {refundId : Uuid} {now : Time} {o : RefundObligation}
    {p : PaymentAttempt} {amount : String} (hp : Prepared g.desk refundId o p) :
    Ceiling { g with
      desk := recordSubmission now o p g.desk
      calls := g.calls ++ [⟨⟨settings, o, p, amount⟩, .prepared⟩] } := by
  have hrow : g.desk.obligation o.pk = some o := by rw [Desk.obligation_pk hp.row]; exact hp.row
  have homem := Desk.obligation_mem hp.row
  have hid : p.providerPaymentId ≠ none := by
    rcases hp.chosen with hpa | ⟨-, hid⟩
    · exact h.allocated o homem p hp.payment hpa
    · exact hid
  -- the submitted obligation is attributed to `p` and to no other payment
  have hself : ∀ q ∈ g.desk.payments, o.calculation.paymentAttempt = some q.pk → q = p := by
    intro q hq hpa
    rcases hp.chosen with hpa' | ⟨hnone, -⟩
    · rw [hpa'] at hpa
      exact Table.eq_of_mem_of_key h.keyed hq hp.payment (Option.some.inj hpa).symm
    · rw [hnone] at hpa; cases hpa
  have hmem : ∀ o' ∈ (recordSubmission now o p g.desk).obligations, ∃ o₀ ∈ g.desk.obligations,
      o'.calculation.paymentAttempt = o₀.calculation.paymentAttempt ∧
        (o' = o₀ ∨ o₀ = o ∧ o'.calculation.detail.originalPaymentId = p.providerPaymentId) := by
    intro o' ho'
    obtain ⟨o₀, ho₀, rfl⟩ := Table.mem_modify.1 ho'
    refine ⟨o₀, ho₀, ?_⟩
    split
    · rename_i hpk
      obtain rfl := Table.eq_of_mem_of_key h.inFlight.keyed ho₀ homem hpk
      exact ⟨rfl, .inr ⟨rfl, rfl⟩⟩
    · exact ⟨rfl, .inl rfl⟩
  have hstep (φ : RefundStatus → Bool) (hdue : φ .due = false) (q : PaymentAttempt) (hq : q ∈ g.desk.payments) :
      refundTotal φ (recordSubmission now o p g.desk) q =
        refundTotal φ g.desk q + if φ .processing && decide (q = p) then o.amount else 0 := by
    have htotal := Table.total_modify (p := fun o => φ o.status && attributed q o) (v := RefundObligation.amount)
      (f := submittedRow now o p) h.inFlight.keyed hrow
    have hatt : (p.providerPaymentId == q.providerPaymentId || o.calculation.paymentAttempt == some q.pk) =
        decide (q = p) := by
      by_cases hqp : q = p
      · simp [hqp]
      · have h1 : p.providerPaymentId ≠ q.providerPaymentId := fun he =>
          hqp (h.unique p hp.payment q hq he hid).symm
        have h2 : o.calculation.paymentAttempt ≠ some q.pk := fun he => hqp (hself q hq he)
        simp [h1, h2, hqp]
    simp only [submittedRow, attributed, Calculation.detail, Option.getD_some, hatt, hp.due, hdue, Bool.false_and,
      Bool.false_eq_true, if_false, sub_zero] at htotal
    exact htotal
  have hprior : previouslyRefunded g.desk o p = outgoingTotal g.desk p := by
    refine Table.total_congr fun o₀ ho₀ => ?_
    by_cases hpk : o₀.pk = o.pk
    · obtain rfl := Table.eq_of_mem_of_key h.inFlight.keyed ho₀ homem hpk
      simp [outgoing, isOutgoing, hp.due]
    · simp [outgoing, isOutgoing, hpk]
  have hroom := hp.room
  have hpos := hp.positive
  rw [hprior] at hroom
  refine ⟨h.inFlight.submitted hp, h.keyed, h.unique, ?_, ?_, ?_, ?_, ?_⟩
  · intro o' ho' q hq hpa
    obtain ⟨o₀, ho₀, hpa', -⟩ := hmem o' ho'
    exact h.allocated o₀ ho₀ q hq (by rwa [hpa'] at hpa)
  · intro i c hc ho
    rcases getElem?_concat hc with hc | ⟨-, rfl⟩
    · exact h.snapshot i c hc ho
    · exact ⟨hp.intent, p, hp.payment, ⟨rfl, rfl, rfl, rfl⟩⟩
  · intro o' ho' hout
    obtain ⟨o₀, ho₀, hpa', rfl | ⟨rfl, horig⟩⟩ := hmem o' ho'
    · exact h.sent _ ho₀ hout
    · refine ⟨by rwa [horig], fun q hq hpa => ?_⟩
      rw [hpa'] at hpa
      rw [horig, hself q hq hpa]
  · intro q hq
    have hle := h.ceiling q hq
    simp only [outgoingTotal] at hle hroom ⊢
    rw [hstep isOutgoing rfl q hq]
    by_cases hqp : q = p
    · subst hqp; simp [isOutgoing]; linarith
    · simpa [hqp] using hle
  · intro q hq hs
    have hle := h.refunded q hq hs
    simp only [confirmedTotal] at hle ⊢
    rw [hstep (· == .transferred) rfl q hq]
    simpa using hle

/-- Closing a call about a desk that only differs in the obligation of the call and in the status of its payment. -/
theorem answered (h : Ceiling g) {i : ℕ} {s : Submission} (reply : Reply) (operator : Option ℕ) (now : Time)
    (hi : g.calls[i]? = some ⟨s, .sent⟩) :
    Ceiling { g with
      desk := (settle s reply operator now g.desk).1
      calls := g.calls.set i ⟨s, .answered reply⟩ } := by
  obtain ⟨o, ho⟩ := h.inFlight.processing i _ hi (.inr rfl)
  have hs := settle_settled ho.row reply operator now
  have hclose {f st} (hf : Edits f st) := h.close hi (.inr rfl) (not_isOpen_answered s reply) ho hf
  generalize (settle s reply operator now g.desk).1 = d at hs ⊢
  cases hs with
  | noted _ _ hf => exact hclose hf
  | returned _ hf => exact hclose hf
  | @confirmed f _ _ hf =>
    refine (hclose hf).setStatus fun hst p hp hpk => ?_
    obtain ⟨hintent, q, hq, hqs⟩ := h.snapshot i _ hi (.inr rfl)
    obtain rfl : p = q := Table.eq_of_mem_of_key h.keyed hp hq (hpk.trans hqs.pk.symm)
    have htotal := (hclose hf).totalConfirmed_eq hp hqs hintent
    rw [refundedStatus] at hst
    split at hst
    · rename_i hle
      rw [← htotal, hqs.amount]
      exact hle
    · cases hst

end Ceiling

/-- Refund calls and new obligations; an obligation is only allocated to a receipt that has a provider id. -/
def RefundsOnly (g : Gateway) : Action → Prop
  | .submit .. | .send .. | .answer .. => True
  | .record o => ∀ p ∈ g.desk.payments, o.calculation.paymentAttempt = some p.pk → p.providerPaymentId ≠ none
  | .verify .. | .verified .. => False

instance (g : Gateway) : (a : Action) → Decidable (RefundsOnly g a)
  | .submit .. | .send .. | .answer .. => instDecidableTrue
  | .record o => inferInstanceAs (Decidable (∀ p ∈ g.desk.payments, o.calculation.paymentAttempt = some p.pk →
      p.providerPaymentId ≠ none))
  | .verify .. | .verified .. => instDecidableFalse

namespace Ceiling
variable {g : Gateway}

theorem recorded (h : Ceiling g) {o : RefundObligation} (hr : Recordable g.desk o) (hok : RefundsOnly g (.record o))
    (hin : InFlight { g with desk.obligations := g.desk.obligations ++ [o] }) :
    Ceiling { g with desk.obligations := g.desk.obligations ++ [o] } := by
  have hnot : outgoing o = false := by simp [outgoing, hr.2.1]
  refine ⟨hin, h.keyed, h.unique, ?_, h.snapshot, ?_, ?_, ?_⟩
  · intro o' ho'
    rcases List.mem_append.1 ho' with ho' | ho'
    · exact h.allocated o' ho'
    · rw [List.mem_singleton.1 ho']; exact hok
  · intro o' ho' hout
    rcases List.mem_append.1 ho' with ho' | ho'
    · exact h.sent o' ho' hout
    · rw [List.mem_singleton.1 ho', hnot] at hout; cases hout
  · intro p hp
    have := h.ceiling p hp
    rwa [outgoingTotal, ← refundTotal_append (o := o) (by simp [isOutgoing, hr.2.1])] at this
  · intro p hp hs
    have := h.refunded p hp hs
    rwa [confirmedTotal, ← refundTotal_append (o := o) (by simp [hr.2.1])] at this

theorem step (h : Ceiling g) {a : Action} (hok : RefundsOnly g a) : Ceiling (g.step a) := by
  have hin := h.inFlight.step a
  have hm := Gateway.step_move g a
  generalize g.step a = g' at hin hm ⊢
  cases hm with
  | stay => exact h
  | submitted hp _ => exact h.submitted (prepare_eq_ok hp)
  | @sent i now s hi =>
    refine ⟨hin, h.keyed, h.unique, h.allocated, fun j c hj ho => ?_, h.sent, h.ceiling, h.refunded⟩
    rw [List.getElem?_set] at hj
    split at hj
    · split at hj
      · cases hj; exact h.snapshot i ⟨s, .prepared⟩ hi (.inl rfl)
      · cases hj
    · exact h.snapshot j c hj ho
  | @unsent i now s hi =>
    obtain ⟨o, ho⟩ := h.inFlight.processing i _ hi (.inl rfl)
    exact h.close hi (.inl rfl) (not_isOpen_notSent s) ho (.restoreDue _ _)
  | answered hi => exact h.answered _ _ _ hi
  | recorded hr => exact h.recorded hr hok hin
  | completed | asked | dropped | processed => exact hok.elim

end Ceiling

/-- A reservation before the refund service has handled any of its refunds. -/
structure Untouched (g : Gateway) : Prop where
  noCalls : g.calls = []
  keyed : (g.desk.obligations.map (·.pk)).Nodup
  paymentsKeyed : (g.desk.payments.map (·.pk)).Nodup
  unique : ∀ p ∈ g.desk.payments, ∀ q ∈ g.desk.payments,
    p.providerPaymentId = q.providerPaymentId → p.providerPaymentId ≠ none → p = q
  nonneg : ∀ p ∈ g.desk.payments, 0 ≤ p.amount
  notRefunded : ∀ p ∈ g.desk.payments, p.status ≠ .refunded
  notOutgoing : ∀ o ∈ g.desk.obligations, outgoing o = false
  allocated : ∀ o ∈ g.desk.obligations, ∀ p ∈ g.desk.payments,
    o.calculation.paymentAttempt = some p.pk → p.providerPaymentId ≠ none

theorem Untouched.ceiling {g : Gateway} (h : Untouched g) : Ceiling g := by
  refine ⟨⟨h.keyed, ?_, ?_⟩, h.paymentsKeyed, h.unique, h.allocated, ?_, ?_, ?_, ?_⟩
  iterate 3 simp [h.noCalls]
  · intro o ho hout
    rw [h.notOutgoing o ho] at hout; cases hout
  · intro p hp
    have hzero : outgoingTotal g.desk p = 0 := Table.total_eq_zero fun o ho => by
      have := h.notOutgoing o ho
      simp_all [outgoing, isOutgoing]
    rw [hzero]; exact h.nonneg p hp
  · intro p hp hs
    exact absurd hs (h.notRefunded p hp)

/-- Whatever the order of submissions and answers, the outgoing refunds of a payment stay within its amount, and
it is `REFUNDED` only when its confirmed refunds reach it. -/
theorem refunds_within_receipt {g : Gateway} (h : Untouched g) {as : List Action}
    (hok : Machine.Meets Gateway.step RefundsOnly g as) {p : PaymentAttempt}
    (hp : p ∈ (Machine.run Gateway.step g as).desk.payments) :
    outgoingTotal (Machine.run Gateway.step g as).desk p ≤ p.amount ∧
      (p.status = .refunded → p.amount ≤ confirmedTotal (Machine.run Gateway.step g as).desk p) :=
  have hc : Ceiling (Machine.run Gateway.step g as) := hok.inv (fun _ _ h hok => h.step hok) h.ceiling
  ⟨hc.ceiling p hp, hc.refunded p hp⟩

theorem paidBooking_untouched : Untouched paidBooking where
  noCalls := rfl
  keyed := by decide
  paymentsKeyed := by decide
  unique := by decide
  nonneg := by decide +kernel
  notRefunded := by decide
  notOutgoing := by decide
  allocated := by decide

/-- The refund of the whole booking, confirmed. -/
theorem refunds_within_receipt_confirmed :
    (Machine.run Gateway.step paidBooking [.submit liveSettings refundPk 2, .send 0 3,
        .answer 0 (.response 200 (.object (answerDocument "000.000.000"))) none 4]).desk.payments =
      [{ cardPayment with status := .refunded }] ∧
    outgoingTotal (Machine.run Gateway.step paidBooking [.submit liveSettings refundPk 2, .send 0 3,
        .answer 0 (.response 200 (.object (answerDocument "000.000.000"))) none 4]).desk
      { cardPayment with status := .refunded } ≤ 100 := by
  have hrun : (Machine.run Gateway.step paidBooking [.submit liveSettings refundPk 2, .send 0 3,
        .answer 0 (.response 200 (.object (answerDocument "000.000.000"))) none 4]).desk.payments =
      [{ cardPayment with status := .refunded }] := by decide +kernel
  refine ⟨hrun, (refunds_within_receipt paidBooking_untouched (by decide +kernel) ?_).1⟩
  rw [hrun]; simp

end Apartments.HyperPay
