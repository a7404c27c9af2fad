import Apartments.HyperPay.Ceiling

/-!
# The money state of a payment attempt

`rank` orders the money states: verified success, partially refunded, refunded. A run moves every attempt up
in this order as long as no provider document is written over an attempt that is already (partially)
refunded: `rereads` is that step, and `rank_lt_of_rereads` shows that it always moves the attempt back. The
invariant behind it says that a `REFUNDED` attempt is covered by the confirmed refunds of its provider id, and
that an open refund call is about an attempt whose money state no verification can touch any more.
-/

namespace Apartments.HyperPay

open Payments

/-- The position of an attempt in the order of money states; 0 before the money is verified. -/
def rank (p : PaymentAttempt) : ℕ :=
  match p.status with
  | .succeeded => if p.verifiedAt.isSome then 1 else 0
  | .partiallyRefunded => 2
  | .refunded => 3
  | _ => 0

theorem rank_eq_zero_iff {p : PaymentAttempt} : rank p = 0 ↔ verifiedSuccess p = false ∧ wasRefunded p = false := by
  unfold rank verifiedSuccess wasRefunded
  cases p.status <;> simp

theorem wasRefunded_iff {p : PaymentAttempt} : wasRefunded p = true ↔ 2 ≤ rank p := by
  unfold rank wasRefunded
  cases p.status <;> simp
  split <;> simp

/-- The attempt a completion is about. -/
def Completion.attempt : Completion → Uuid
  | .paymentRequest _ attempt | .modification _ attempt | .booking attempt => attempt

theorem completion_attempt (p : PaymentAttempt) : (completion p).attempt = p.pk := by
  unfold completion
  split <;> rfl

/-- A document that arrives now is written over a refunded attempt. -/
def rereads (g : Gateway) : Action → Bool
  | .verified j document now =>
    match g.checks[j]? with
    | some ⟨settings, attemptId, paymentRequest, false⟩ =>
      !stillPending paymentRequest document &&
        (g.desk.payment attemptId).any fun p =>
          wasRefunded p && !idTaken g.desk (rewritten settings document now p)
    | _ => false
  | _ => false

/-- The confirmed refunds submitted under a provider id. -/
def confirmedUnder (d : Desk) (id : Option String) : Dec :=
  Table.total (fun o => o.status == .transferred && o.calculation.detail.originalPaymentId == id)
    RefundObligation.amount d.obligations

theorem totalConfirmed_eq_under {d : Desk} {p : PaymentAttempt} (h : d.bookingIntent = some p.bookingIntent) :
    totalConfirmed d p = confirmedUnder d p.providerPaymentId := by
  simp [totalConfirmed, confirmedUnder, h]

theorem confirmedUnder_edits {d : Desk} {pk : Uuid} {o : RefundObligation} {f : RefundObligation → RefundObligation}
    {st : RefundStatus → RefundStatus} (hnd : (d.obligations.map (·.pk)).Nodup) (hrow : d.obligation pk = some o)
    (hf : Edits f st) (hs : o.status = .processing) (id : Option String) :
    confirmedUnder (d.modifyObligation pk f) id = confirmedUnder d id +
      if st .processing == .transferred && o.calculation.detail.originalPaymentId == id then o.amount else 0 := by
  have h := Table.total_modify (v := RefundObligation.amount) (f := f)
    (p := fun o => o.status == .transferred && o.calculation.detail.originalPaymentId == id) hnd hrow
  simp only [hf.original, hf.status, hf.amount, hs] at h
  simpa [confirmedUnder, Desk.modifyObligation] using h

structure Forward (g : Gateway) : Prop where
  inFlight : InFlight g
  keyed : (g.desk.payments.map (·.pk)).Nodup
  verified : ∀ p ∈ g.desk.payments, p.status = .succeeded → p.verifiedAt.isSome
  snapshot : ∀ (i : ℕ) (c : Call), g.calls[i]? = some c → c.isOpen →
    g.desk.bookingIntent = some c.submission.payment.bookingIntent ∧
      ∃ p ∈ g.desk.payments, SameReceipt p c.submission.payment ∧ 1 ≤ rank p
  covered : ∀ p ∈ g.desk.payments, p.status = .refunded → g.desk.bookingIntent = some p.bookingIntent →
    p.amount ≤ confirmedUnder g.desk p.providerPaymentId

/-- No attempt moves back, and nothing is completed for an attempt that was refunded. -/
structure Onward (g g' : Gateway) : Prop where
  rank : ∀ pk p, g.desk.payment pk = some p → ∃ p', g'.desk.payment pk = some p' ∧ HyperPay.rank p ≤ HyperPay.rank p'
  completions : ∃ tail, g'.completions = g.completions ++ tail ∧
    ∀ c ∈ tail, ∀ p, g.desk.payment c.attempt = some p → wasRefunded p = false

namespace Onward
variable {g g' g'' : Gateway}

theorem refl (g : Gateway) : Onward g g := ⟨fun _ p hp => ⟨p, hp, le_rfl⟩, [], by simp, by simp⟩

theorem of_payments (h : g'.desk.payments = g.desk.payments) (hc : g'.completions = g.completions) : Onward g g' :=
  ⟨fun _ p hp => ⟨p, by simpa only [Desk.payment, h] using hp, le_rfl⟩, [], by simp [hc], by simp⟩

theorem trans (h : Onward g g') (h' : Onward g' g'') : Onward g g'' := by
  refine ⟨fun pk p hp => ?_, ?_⟩
  · obtain ⟨p', hp', hle⟩ := h.rank pk p hp
    obtain ⟨p'', hp'', hle'⟩ := h'.rank pk p' hp'
    exact ⟨p'', hp'', hle.trans hle'⟩
  · obtain ⟨t, ht, hfree⟩ := h.completions
    obtain ⟨t', ht', hfree'⟩ := h'.completions
    refine ⟨t ++ t', by rw [ht', ht, List.append_assoc], fun c hc p hp => ?_⟩
    rcases List.mem_append.1 hc with hc | hc
    · exact hfree c hc p hp
    · obtain ⟨p', hp', hle⟩ := h.rank _ p hp
      have hn := hfree' c hc p' hp'
      by_contra hr
      have h2 := wasRefunded_iff.1 (by simpa using hr)
      rw [wasRefunded_iff.2 (h2.trans hle)] at hn
      cases hn

end Onward

namespace Forward
variable {g : Gateway}

theorem rank_pos (h : Forward g) {p : PaymentAttempt} (hp : p ∈ g.desk.payments) (hr : refundable p) : 1 ≤ rank p := by
  simp only [refundable, Bool.or_eq_true, beq_iff_eq] at hr
  rcases hr with hs | hs
  · simp [rank, hs, h.verified p hp hs]
  · simp [rank, hs]

/-- Closing a call without confirming it. -/
theorem close (h : Forward g) {i : ℕ} {s : Submission} {phase : Phase} {c : Call} {o : RefundObligation}
    {f : RefundObligation → RefundObligation} {st : RefundStatus → RefundStatus}
    (hi : g.calls[i]? = some ⟨s, phase⟩) (ho : Call.isOpen ⟨s, phase⟩) (hc : ¬ c.isOpen)
    (hrow : Processing g.desk s o) (hf : Edits f st) :
    Forward { g with desk := g.desk.modifyObligation s.refund.pk f, calls := g.calls.set i c } := by
  refine ⟨h.inFlight.close hi ho hc hf.pk rfl, h.keyed, h.verified, fun j c' hj ho' => ?_, fun p hp hs hint => ?_⟩
  · exact h.snapshot j c' (open_of_set hc hj ho').2 ho'
  · refine (h.covered p hp hs hint).trans ?_
    rw [confirmedUnder_edits h.inFlight.keyed hrow.row hf hrow.status]
    have := hrow.positive
    split <;> linarith

/-- A confirmed refund moves the payment it was sent against, and only that one. -/
theorem setStatus (h : Forward g) {q : PaymentAttempt} {status : PaymentStatus}
    (hq : q ∈ g.desk.payments) (hs : status = .refunded ∨ status = .partiallyRefunded)
    (hcov : status = .refunded → q.amount ≤ confirmedUnder g.desk q.providerPaymentId)
    (hkeep : q.status = .refunded → status = .refunded) :
    Forward { g with desk := g.desk.setPaymentStatus q.pk status } ∧
      Onward g { g with desk := g.desk.setPaymentStatus q.pk status } := by
  have hmem : ∀ p' ∈ (g.desk.setPaymentStatus q.pk status).payments,
      p' = { q with status := status } ∨ p' ∈ g.desk.payments := by
    intro p' hp'
    obtain ⟨p, hp, rfl⟩ := Table.mem_modify.1 hp'
    split
    · rename_i hpk
      exact .inl (by rw [Table.eq_of_mem_of_key h.keyed hp hq hpk])
    · exact .inr hp
  have hrank : rank q ≤ rank { q with status := status } := by
    rcases hs with rfl | rfl
    · simp only [rank]; split <;> [split <;> omega; omega; omega; omega]
    · simp only [rank]
      split <;> [split <;> omega; omega; rename_i hq'; omega]
      exact absurd (hkeep hq') (by simp)
  have hpos : 1 ≤ rank { q with status := status } := by rcases hs with rfl | rfl <;> simp [rank]
  have hqrow : g.desk.payment q.pk = some q := Table.get_eq_of_mem h.keyed hq
  refine ⟨⟨h.inFlight.frame h.inFlight.keyed fun i c hc ho => ⟨c, hc, ho, rfl, rfl⟩, ?_, ?_, ?_, ?_⟩,
    ⟨fun pk p hp => ?_, [], by simp, by simp⟩⟩
  · rw [Desk.setPaymentStatus, Desk.pks_modifyPayment fun _ => by rfl]; exact h.keyed
  · intro p' hp' hst
    rcases hmem p' hp' with rfl | hp'
    · rcases hs with rfl | rfl <;> cases hst
    · exact h.verified p' hp' hst
  · intro i c hc ho
    obtain ⟨hint, p, hp, hsame, hp1⟩ := h.snapshot i c hc ho
    refine ⟨hint, if p.pk = q.pk then { p with status := status } else p, Table.mem_modify.2 ⟨p, hp, rfl⟩, ?_⟩
    split
    · rename_i hpk
      obtain rfl := Table.eq_of_mem_of_key h.keyed hp hq hpk
      exact ⟨⟨hsame.pk, hsame.providerPaymentId, hsame.amount, hsame.bookingIntent⟩, hpos⟩
    · exact ⟨hsame, hp1⟩
  · intro p' hp' hst hint
    rcases hmem p' hp' with rfl | hp'
    · exact hcov hst
    · exact h.covered p' hp' hst hint
  · by_cases hpk : pk = q.pk
    · subst hpk
      rw [hqrow] at hp
      cases hp
      exact ⟨_, Desk.payment_modify_self (fun _ => by rfl) hqrow, hrank⟩
    · exact ⟨p, (Desk.payment_modify_ne (fun _ => by rfl) hpk).trans hp, le_rfl⟩

theorem submitted (h : Forward g) {settings : Settings} {refundId : Uuid} {now : Time} {o : RefundObligation}
    {p : PaymentAttempt} {amount : String} (hp : Prepared g.desk refundId o p) :
    Forward { g with
      desk := recordSubmission now o p g.desk
      calls := g.calls ++ [⟨⟨settings, o, p, amount⟩, .prepared⟩] } := by
  have hrow : g.desk.obligation o.pk = some o := by rw [Desk.obligation_pk hp.row]; exact hp.row
  have hunder (id : Option String) :
      confirmedUnder (recordSubmission now o p g.desk) id = confirmedUnder g.desk id := by
    have := Table.total_modify (v := RefundObligation.amount)
      (p := fun o => o.status == .transferred && o.calculation.detail.originalPaymentId == id)
      (f := submittedRow now o p) h.inFlight.keyed hrow
    simpa [confirmedUnder, recordSubmission, Desk.modifyObligation, submittedRow, hp.due] using this
  refine ⟨h.inFlight.submitted hp, h.keyed, h.verified, fun i c hc ho => ?_, fun q hq hs hint => ?_⟩
  · rcases getElem?_concat hc with hc | ⟨-, rfl⟩
    · exact h.snapshot i c hc ho
    · exact ⟨hp.intent, p, hp.payment, ⟨rfl, rfl, rfl, rfl⟩, h.rank_pos hp.payment hp.refundable⟩
  · rw [hunder]; exact h.covered q hq hs hint

theorem answered (h : Forward g) {i : ℕ} {s : Submission} (reply : Reply) (operator : Option ℕ) (now : Time)
    (hi : g.calls[i]? = some ⟨s, .sent⟩) :
    let g' : Gateway := { g with
      desk := (settle s reply operator now g.desk).1
      calls := g.calls.set i ⟨s, .answered reply⟩ }
    Forward g' ∧ Onward g g' := by
  obtain ⟨o, ho⟩ := h.inFlight.processing i _ hi (.inr rfl)
  have hs := settle_settled ho.row reply operator now
  have hclose {f st} (hf : Edits f st) := h.close hi (.inr rfl) (not_isOpen_answered s reply) ho hf
  generalize (settle s reply operator now g.desk).1 = d at hs ⊢
  cases hs with
  | noted _ _ hf => exact ⟨hclose hf, .of_payments rfl rfl⟩
  | returned _ hf => exact ⟨hclose hf, .of_payments rfl rfl⟩
  | @confirmed f _ _ hf =>
    obtain ⟨hint, q, hq, hsame, -⟩ := h.snapshot i _ hi (.inr rfl)
    set d := g.desk.modifyObligation s.refund.pk f with hd
    have hint' : d.bookingIntent = some s.payment.bookingIntent := hint
    have hset : refundedStatus d s.payment = .refunded ↔ q.amount ≤ confirmedUnder d q.providerPaymentId := by
      rw [refundedStatus, totalConfirmed_eq_under hint', hsame.amount, hsame.providerPaymentId]
      split <;> simp_all
    have hst : refundedStatus d s.payment = .refunded ∨ refundedStatus d s.payment = .partiallyRefunded := by
      rw [refundedStatus]; split <;> simp
    have hpair := (hclose hf).setStatus hq hst hset.1
      fun hr => hset.2 ((hclose hf).covered q hq hr (by rw [hsame.bookingIntent]; exact hint'))
    rw [hsame.pk] at hpair
    refine ⟨hpair.1, .trans ?_ hpair.2⟩
    exact .of_payments rfl rfl

/-- A document is written over an attempt whose money is not verified yet. -/
theorem processed (h : Forward g) {settings : Settings} {p : PaymentAttempt} {document : Document} {now : Time}
    {d : Desk} {done : Option Completion} {checks : List Check} (hp : g.desk.payment p.pk = some p)
    (hd : processVerification settings p document now g.desk = .ok (d, done))
    (hfree : idTaken g.desk (rewritten settings document now p) = false → wasRefunded p = false) :
    let g' : Gateway := { g with desk := d, checks := checks, completions := g.completions ++ done.toList }
    Forward g' ∧ Onward g g' := by
  rcases processVerification_eq_ok hd with ⟨-, rfl, rfl⟩ | ⟨hv, ht, rfl, hdone⟩
  · refine ⟨⟨⟨h.inFlight.keyed, h.inFlight.processing, h.inFlight.alone⟩, h.keyed, h.verified, h.snapshot, h.covered⟩, ?_⟩
    exact .of_payments rfl (by simp)
  have hzero : rank p = 0 := rank_eq_zero_iff.2 ⟨hv, hfree ht⟩
  have hpmem := Desk.payment_mem hp
  have hpk (q : PaymentAttempt) : (rewritten settings document now q).pk = q.pk := rfl
  have hmem : ∀ q' ∈ (g.desk.modifyPayment p.pk (rewritten settings document now)).payments,
      q' = rewritten settings document now p ∨ q' ∈ g.desk.payments := by
    intro q' hq'
    obtain ⟨q, hq, rfl⟩ := Table.mem_modify.1 hq'
    split
    · rename_i hqp
      exact .inl (by rw [Table.eq_of_mem_of_key h.keyed hq hpmem hqp])
    · exact .inr hq
  refine ⟨⟨h.inFlight.frame h.inFlight.keyed fun i c hc ho => ⟨c, hc, ho, rfl, rfl⟩, ?_, ?_, ?_, ?_⟩, ?_, done.toList, rfl, ?_⟩
  · show ((g.desk.modifyPayment p.pk (rewritten settings document now)).payments.map (·.pk)).Nodup
    rw [Desk.pks_modifyPayment hpk]; exact h.keyed
  · intro q' hq' hst
    rcases hmem q' hq' with rfl | hq'
    · rfl
    · exact h.verified q' hq' hst
  · intro i c hc ho
    -- the payment of an open call is in a money state, so it is another one
    obtain ⟨hint, q, hq, hsame, hq1⟩ := h.snapshot i c hc ho
    refine ⟨hint, q, Table.mem_modify_of_ne hq fun hqp => ?_, hsame, hq1⟩
    rw [Table.eq_of_mem_of_key h.keyed hq hpmem hqp, hzero] at hq1
    omega
  · intro q' hq' hst hint
    rcases hmem q' hq' with rfl | hq'
    · simp only [rewritten] at hst
      cases hc : verifiedClass settings p document <;> simp [hc, statusOf] at hst
    · exact h.covered q' hq' hst hint
  · intro pk q hq
    by_cases hqp : pk = p.pk
    · subst hqp
      rw [hp] at hq; cases hq
      exact ⟨_, Desk.payment_modify_self hpk hp, by rw [hzero]; exact Nat.zero_le _⟩
    · exact ⟨q, (Desk.payment_modify_ne hpk hqp).trans hq, le_rfl⟩
  · intro c hc q hq
    rw [hdone] at hc
    split at hc
    · rw [Option.toList_some, List.mem_singleton] at hc
      subst hc
      rw [completion_attempt, hpk, hp] at hq; cases hq
      exact hfree ht
    · simp at hc

theorem recorded (h : Forward g) {o : RefundObligation} (hr : Recordable g.desk o)
    (hin : InFlight { g with desk.obligations := g.desk.obligations ++ [o] }) :
    Forward { g with desk.obligations := g.desk.obligations ++ [o] } := by
  refine ⟨hin, h.keyed, h.verified, h.snapshot, fun p hp hs hint => ?_⟩
  have := h.covered p hp hs hint
  simpa [confirmedUnder, Table.total_append, Table.total_cons, hr.2.1] using this

theorem step (h : Forward g) {a : Action} (hok : rereads g a = false) :
    Forward (g.step a) ∧ Onward g (g.step a) := by
  have hin := h.inFlight.step a
  have hm := Gateway.step_move g a
  generalize g.step a = g' at hin hm ⊢
  cases hm with
  | stay => exact ⟨h, .refl g⟩
  | submitted hp _ => exact ⟨h.submitted (prepare_eq_ok hp), .of_payments rfl rfl⟩
  | @sent i now s hi =>
    refine ⟨⟨hin, h.keyed, h.verified, fun j c hj ho => ?_, h.covered⟩, .of_payments rfl rfl⟩
    rw [List.getElem?_set] at hj
    split at hj
    · split at hj
      · cases hj; exact h.snapshot i ⟨s, .prepared⟩ hi (.inl rfl)
      · cases hj
    · exact h.snapshot j c hj ho
  | @unsent i now s hi =>
    obtain ⟨o, ho⟩ := h.inFlight.processing i _ hi (.inl rfl)
    exact ⟨h.close hi (.inl rfl) (not_isOpen_notSent s) ho (.restoreDue _ _), .of_payments rfl rfl⟩
  | answered hi => exact h.answered _ _ _ hi
  | recorded hr => exact ⟨h.recorded hr hin, .of_payments rfl rfl⟩
  | @completed settings attemptId p hp hc =>
    refine ⟨⟨hin, h.keyed, h.verified, h.snapshot, h.covered⟩, fun _ q hq => ⟨q, hq, le_rfl⟩, [completion p], rfl, ?_⟩
    intro c hc' q hq
    rw [List.mem_singleton] at hc'
    subst hc'
    rw [completion_attempt, Desk.payment_pk hp, hp] at hq; cases hq
    have hv := (opening_complete hc).2
    simp only [verifiedSuccess, Bool.and_eq_true, beq_iff_eq] at hv
    simp [wasRefunded, hv.1]
  | asked | dropped => exact ⟨⟨hin, h.keyed, h.verified, h.snapshot, h.covered⟩, .of_payments rfl rfl⟩
  | @processed j document now settings attemptId paymentRequest p d done hj hpend hp hd =>
    have hpk := Desk.payment_pk hp
    subst hpk
    refine h.processed hp hd fun ht => ?_
    simpa [rereads, hj, hpend, hp, ht] using hok

end Forward

/-- A reservation without refund calls under way: rows have keys, verified money has a time of verification, and
what is marked `REFUNDED` is covered by confirmed refunds. -/
structure Consistent (g : Gateway) : Prop where
  noCalls : g.calls = []
  keyed : (g.desk.obligations.map (·.pk)).Nodup
  paymentsKeyed : (g.desk.payments.map (·.pk)).Nodup
  verified : ∀ p ∈ g.desk.payments, p.status = .succeeded → p.verifiedAt.isSome
  covered : ∀ p ∈ g.desk.payments, p.status = .refunded → g.desk.bookingIntent = some p.bookingIntent →
    p.amount ≤ confirmedUnder g.desk p.providerPaymentId

theorem Consistent.forward {g : Gateway} (h : Consistent g) : Forward g := by
  refine ⟨⟨h.keyed, ?_, ?_⟩, h.paymentsKeyed, h.verified, ?_, h.covered⟩ <;> simp [h.noCalls]

/-- A document written over a refunded attempt moves it back. -/
theorem rank_lt_of_rereads {g : Gateway} {a : Action} (h : rereads g a = true) :
    ∃ pk p p', g.desk.payment pk = some p ∧ (g.step a).desk.payment pk = some p' ∧ rank p' < rank p := by
  unfold rereads at h
  split at h
  · rename_i j document now
    split at h
    · rename_i settings attemptId paymentRequest hj
      simp only [Bool.and_eq_true, Bool.not_eq_true', Option.any_eq_true] at h
      obtain ⟨hpend, p, hp, hr, ht⟩ := h
      have hpk := Desk.payment_pk hp
      subst hpk
      have hr2 := wasRefunded_iff.1 hr
      have hv : verifiedSuccess p = false := by
        simp only [wasRefunded, Bool.or_eq_true, beq_iff_eq] at hr
        rcases hr with hr | hr <;> simp [verifiedSuccess, hr]
      refine ⟨p.pk, p, rewritten settings document now p, hp, ?_, ?_⟩
      · have hd : ∃ done, processVerification settings p document now g.desk =
            .ok (g.desk.modifyPayment p.pk (rewritten settings document now), done) := by
          simp only [processVerification, hv, ht, Bool.false_eq_true, if_false]
          by_cases hc : verifiedClass settings p document = .success <;> simp [hc]
        obtain ⟨done, hd⟩ := hd
        simp only [Gateway.step, hj, hpend, hp, hd]
        exact Desk.payment_modify_self (fun _ => rfl) hp
      · have hle : rank (rewritten settings document now p) ≤ 1 := by
          simp only [rank, rewritten]
          cases verifiedClass settings p document <;> simp [statusOf]
        omega
    · cases h
  · cases h

/-- As long as no document is written over a refunded attempt, every attempt only moves up in the order of money
states, and nothing is completed any more for one that was refunded. -/
theorem money_moves_forward {g : Gateway} (h : Consistent g) {as bs : List Action}
    (hok : Machine.Meets Gateway.step (fun g a => rereads g a = false) g (as ++ bs)) {pk : Uuid} {p : PaymentAttempt}
    (hp : (Machine.run Gateway.step g as).desk.payment pk = some p) :
    (∃ p', (Machine.run Gateway.step g (as ++ bs)).desk.payment pk = some p' ∧ rank p ≤ rank p') ∧
      ∃ tail, (Machine.run Gateway.step g (as ++ bs)).completions =
          (Machine.run Gateway.step g as).completions ++ tail ∧
        (wasRefunded p → ∀ c ∈ tail, c.attempt ≠ pk) := by
  obtain ⟨has, hbs⟩ := Machine.meets_append.1 hok
  have hmid : Forward (Machine.run Gateway.step g as) := has.inv (fun _ _ h hok => (h.step hok).1) h.forward
  have hon : Onward (Machine.run Gateway.step g as) (Machine.run Gateway.step g (as ++ bs)) := by
    rw [Machine.run_append]
    exact hbs.rel (I := Forward) (fun _ _ h hok => (h.step hok).1) .refl (fun _ _ _ => .trans)
      (fun _ _ h hok => (h.step hok).2) hmid
  obtain ⟨tail, ht, hfree⟩ := hon.completions
  refine ⟨hon.rank pk p hp, tail, ht, fun hr c hc hcp => ?_⟩
  rw [hfree c hc p (by rw [hcp]; exact hp)] at hr
  cases hr

theorem paidBooking_consistent : Consistent paidBooking where
  noCalls := rfl
  keyed := by decide
  paymentsKeyed := by decide
  verified := by decide
  covered := by intro p hp hs; simp [paidBooking] at hp; subst hp; cases hs

/-- The payment is refunded in full; then the guest's browser verifies it again. -/
def reverifiedRun : List Action :=
  [.submit liveSettings refundPk 2, .send 0 3,
   .answer 0 (.response 200 (.object (answerDocument "000.000.000"))) none 4,
   .verify liveSettings paymentPk]

/-- The verification that is opened after the refund does no harm before its document arrives. -/
theorem money_moves_forward_refunded :
    ∃ tail, (Machine.run Gateway.step paidBooking (reverifiedRun ++ [])).completions =
      (Machine.run Gateway.step paidBooking reverifiedRun).completions ++ tail ∧
        (wasRefunded { cardPayment with status := .refunded } → ∀ c ∈ tail, c.attempt ≠ paymentPk) :=
  have hrun : (Machine.run Gateway.step paidBooking reverifiedRun).desk.payment paymentPk =
      some { cardPayment with status := .refunded } := by decide +kernel
  have hok : Machine.Meets Gateway.step (fun g a => rereads g a = false) paidBooking (reverifiedRun ++ []) := by
    decide +kernel
  (money_moves_forward paidBooking_consistent hok hrun).2

/-- The document of the checkout sets the refunded payment back to `SUCCEEDED` and completes the booking. -/
theorem reverified_refund_succeeds :
    (Machine.run Gateway.step paidBooking reverifiedRun).desk.payment paymentPk =
        some { cardPayment with status := .refunded } ∧
      ((Machine.run Gateway.step paidBooking
        (reverifiedRun ++ [.verified 0 (answerDocument "000.000.000") 6])).desk.payment paymentPk).map rank = some 1 ∧
      (Machine.run Gateway.step paidBooking
        (reverifiedRun ++ [.verified 0 (answerDocument "000.000.000") 6])).completions = [.booking paymentPk] := by
  decide +kernel

end Apartments.HyperPay
