import Apartments.HyperPay.InFlight

/-!
# A refund is sent again only after a definite rejection

`rejects` says which answers are a definite rejection and `misread` which answers are not one and still make
`submit` set the obligation back to `DUE`: a code to be reviewed or outside the known format, and a body that
cannot be read under a status that is no client error. In a run without misread answers (`Readable`) a request
that was sent and not rejected is the last one of its obligation, and the obligation is not `DUE`.
-/

namespace Apartments.HyperPay

open Payments

/-- A definite rejection: a client error, or a document whose code says failed or cancelled. -/
def rejects : Reply → Bool
  | .response statusCode body =>
    if 400 ≤ statusCode then statusCode < 500
    else
      match body with
      | .object document => mapResultCode document.code == .failed || mapResultCode document.code == .cancelled
      | .unreadable | .notObject => false
  | _ => false

/-- No definite rejection, and yet answered by setting the obligation back to `DUE`. -/
def misread : Reply → Bool
  | .response statusCode body =>
    match body with
    | .object document =>
      statusCode < 400 && (mapResultCode document.code == .review || mapResultCode document.code == .unknown)
    | .unreadable | .notObject => statusCode < 400 || 500 ≤ statusCode
  | _ => false

theorem returnsDue_iff (reply : Reply) : returnsDue reply = true ↔ rejects reply = true ∨ misread reply = true := by
  cases reply with
  | response statusCode body =>
    cases body with
    | object document =>
      by_cases hauth : statusCode = 401 ∨ statusCode = 403
      · rcases hauth with rfl | rfl <;> simp [returnsDue, request, rejects, authenticationError]
      · by_cases h5 : 500 ≤ statusCode
        · have h4 : 400 ≤ statusCode := by omega
          simp [returnsDue, request, hauth, h5, h4, rejects, misread, connectionError]
        · by_cases h4 : 400 ≤ statusCode
          · simp [returnsDue, request, hauth, h5, h4, rejects]
            omega
          · have h4' : statusCode < 400 := by omega
            simp only [returnsDue, request, hauth, h5, h4, h4', rejects, misread, if_false]
            cases mapResultCode document.code <;> decide
    | unreadable | notObject =>
      by_cases hauth : statusCode = 401 ∨ statusCode = 403
      · rcases hauth with rfl | rfl <;> simp [returnsDue, request, rejects, authenticationError]
      · simp only [returnsDue, request, hauth, rejects, misread, responseError]
        by_cases h4 : 400 ≤ statusCode <;> simp [h4] <;> omega
  | _ => simp [returnsDue, request, rejects, misread, connectionError]

/-- A misread answer always frees the obligation of a request that was not rejected. -/
theorem settle_misread {s : Submission} {reply : Reply} {d : Desk} {o : RefundObligation}
    (h : d.obligation s.refund.pk = some o) (hm : misread reply = true) (operator : Option ℕ) (now : Time) :
    ∃ o', (settle s reply operator now d).1.obligation s.refund.pk = some o' ∧ o'.status = .due := by
  have hr : returnsDue reply = true := (returnsDue_iff reply).2 (.inr hm)
  have hs := settle_settled h reply operator now
  generalize (settle s reply operator now d).1 = d' at hs ⊢
  cases hs with
  | noted _ hr' _ => rw [hr] at hr'; cases hr'
  | returned _ hf => exact ⟨_, Desk.obligation_modify_self hf.pk h, hf.status o⟩
  | confirmed _ hr' _ => rw [hr] at hr'; cases hr'

/-- The request of the call may still leave or may have been carried out. -/
def Call.held (c : Call) : Bool :=
  match c.phase with
  | .prepared | .sent => true
  | .answered reply => !rejects reply
  | .notSent => false

/-- The request of the call was sent and has not been definitely rejected. -/
def Call.undecided (c : Call) : Bool :=
  match c.phase with
  | .sent => true
  | .answered reply => !rejects reply
  | .prepared | .notSent => false

theorem Call.held_of_undecided {c : Call} (h : c.undecided = true) : c.held = true := by
  unfold Call.undecided at h; unfold Call.held
  split at h <;> simp_all

/-- The action is not an answer that is misread. -/
def Readable (_ : Gateway) : Action → Prop
  | .answer _ reply _ _ => misread reply = false
  | _ => True

instance (g : Gateway) : (a : Action) → Decidable (Readable g a)
  | .answer _ reply _ _ => inferInstanceAs (Decidable (misread reply = false))
  | .submit .. | .send .. | .record .. | .verify .. | .verified .. => instDecidableTrue

/-- A held call is the last one of its obligation, and the obligation is not `DUE`. -/
structure SentOnce (g : Gateway) : Prop where
  inFlight : InFlight g
  notDue : ∀ (i : ℕ) (c : Call), g.calls[i]? = some c → c.held →
    ∃ o, g.desk.obligation c.refundId = some o ∧ o.status ≠ .due
  last : ∀ (i j : ℕ) (c c' : Call), i < j → g.calls[i]? = some c → g.calls[j]? = some c' →
    c.refundId = c'.refundId → c.held = false

namespace SentOnce
variable {g g' : Gateway}

theorem alone (h : SentOnce g) {i j : ℕ} {c c' : Call} (hi : g.calls[i]? = some c) (hj : g.calls[j]? = some c')
    (hc : c.held) (hc' : c'.held) (hid : c.refundId = c'.refundId) : i = j := by
  rcases lt_trichotomy i j with hij | hij | hij
  · rw [h.last i j c c' hij hi hj hid] at hc; cases hc
  · exact hij
  · rw [h.last j i c' c hij hj hi hid.symm] at hc'; cases hc'

/-- A step that appends no call keeps the invariant if a call it makes no longer held stays so. -/
theorem frame (h : SentOnce g) (hin : InFlight g')
    (hcalls : ∀ (i : ℕ) (c : Call), g'.calls[i]? = some c →
      ∃ c₀, g.calls[i]? = some c₀ ∧ c₀.refundId = c.refundId ∧ (c.held → c₀.held))
    (hrow : ∀ (i : ℕ) (c : Call), g'.calls[i]? = some c → c.held →
      ∃ o, g'.desk.obligation c.refundId = some o ∧ o.status ≠ .due) : SentOnce g' := by
  refine ⟨hin, hrow, fun i j c c' hij hc hc' hid => ?_⟩
  obtain ⟨c₀, hc₀, hid₀, hh₀⟩ := hcalls i c hc
  obtain ⟨c₁, hc₁, hid₁, -⟩ := hcalls j c' hc'
  have hfree := h.last i j c₀ c₁ hij hc₀ hc₁ (by rw [hid₀, hid₁, hid])
  by_contra hheld
  rw [hh₀ (by simpa using hheld)] at hfree
  cases hfree

/-- Replacing the phase of an open call, with a desk on which other obligations are as before. -/
theorem setPhase (h : SentOnce g) {i : ℕ} {s : Submission} {phase phase' : Phase} {d : Desk}
    (hi : g.calls[i]? = some ⟨s, phase⟩) (ho : Call.held ⟨s, phase⟩)
    (hin : InFlight { g with desk := d, calls := g.calls.set i ⟨s, phase'⟩ })
    (hother : ∀ pk, pk ≠ s.refund.pk → d.obligation pk = g.desk.obligation pk)
    (hself : Call.held ⟨s, phase'⟩ → ∃ o, d.obligation s.refund.pk = some o ∧ o.status ≠ .due) :
    SentOnce { g with desk := d, calls := g.calls.set i ⟨s, phase'⟩ } := by
  have hset (j : ℕ) (c : Call) (hj : (g.calls.set i ⟨s, phase'⟩)[j]? = some c) :
      j = i ∧ c = ⟨s, phase'⟩ ∨ i ≠ j ∧ g.calls[j]? = some c := by
    rw [List.getElem?_set] at hj
    split at hj
    · split at hj
      · rename_i hij _; exact .inl ⟨hij.symm, (Option.some.inj hj).symm⟩
      · cases hj
    · exact .inr ⟨by assumption, hj⟩
  refine h.frame hin (fun j c hj => ?_) fun j c hj hc => ?_
  · rcases hset j c hj with ⟨rfl, rfl⟩ | ⟨-, hj⟩
    · exact ⟨_, hi, rfl, fun _ => ho⟩
    · exact ⟨c, hj, rfl, id⟩
  · rcases hset j c hj with ⟨rfl, rfl⟩ | ⟨hij, hj⟩
    · exact hself hc
    · have hne : c.refundId ≠ s.refund.pk := fun hid => hij (h.alone hi hj ho hc hid.symm)
      obtain ⟨o, hrow, hs⟩ := h.notDue j c hj hc
      exact ⟨o, (hother _ hne).trans hrow, hs⟩

theorem submitted (h : SentOnce g) {settings : Settings} {refundId : Uuid} {now : Time} {o : RefundObligation}
    {p : PaymentAttempt} {amount : String} (hp : Prepared g.desk refundId o p) :
    SentOnce { g with
      desk := recordSubmission now o p g.desk
      calls := g.calls ++ [⟨⟨settings, o, p, amount⟩, .prepared⟩] } := by
  have hrow : g.desk.obligation o.pk = some o := by rw [Desk.obligation_pk hp.row]; exact hp.row
  have hfree (i : ℕ) (c : Call) (hc : g.calls[i]? = some c) (hh : c.held) : c.refundId ≠ o.pk := by
    intro hid
    obtain ⟨o', ho', hs⟩ := h.notDue i c hc hh
    rw [hid, hrow] at ho'
    cases ho'
    exact hs hp.due
  refine ⟨h.inFlight.submitted hp, fun i c hc hh => ?_, fun i j c c' hij hc hc' hid => ?_⟩
  · rcases getElem?_concat hc with hc | ⟨-, rfl⟩
    · obtain ⟨o', ho', hs⟩ := h.notDue i c hc hh
      exact ⟨o', (recordSubmission_ne (hfree i c hc hh)).trans ho', hs⟩
    · exact ⟨_, Desk.obligation_modify_self (fun _ => rfl) hrow, by simp [submittedRow]⟩
  · rcases getElem?_concat hc' with hc' | ⟨rfl, rfl⟩
    · rcases getElem?_concat hc with hc | ⟨rfl, -⟩
      · exact h.last i j c c' hij hc hc' hid
      · have := (List.getElem?_eq_some_iff.1 hc').1; omega
    · rcases getElem?_concat hc with hc | ⟨rfl, -⟩
      · by_contra hh
        exact hfree i c hc (by simpa using hh) hid
      · omega

theorem step (h : SentOnce g) {a : Action} (hok : Readable g a) : SentOnce (g.step a) := by
  have hin := h.inFlight.step a
  have hm := Gateway.step_move g a
  generalize g.step a = g' at hin hm ⊢
  cases hm with
  | stay => exact h
  | submitted hp _ => exact h.submitted (prepare_eq_ok hp)
  | sent hi => exact h.setPhase hi rfl hin (fun _ _ => rfl) fun _ => h.notDue _ _ hi rfl
  | unsent hi =>
    exact h.setPhase hi rfl hin (fun pk hpk => Desk.obligation_modify_ne (Edits.restoreDue _ _).pk hpk)
      fun hh => by cases hh
  | @answered i reply operator now s hi =>
    obtain ⟨o, ho⟩ := h.inFlight.processing i _ hi (.inr rfl)
    have hs := settle_settled ho.row reply operator now
    obtain ⟨f, st, hf, hd⟩ := hs.obligations
    refine h.setPhase hi rfl hin (fun pk hpk => ?_) fun hh => ?_
    · simpa only [Desk.obligation, hd] using Desk.obligation_modify_ne (d := g.desk) hf.pk hpk
    · generalize (settle s reply operator now g.desk).1 = d at hs ⊢
      cases hs with
      | noted _ _ hf => exact ⟨_, Desk.obligation_modify_self hf.pk ho.row, by rw [hf.status, ho.status]; simp⟩
      | returned hr _ =>
        -- the only answers that free the obligation are rejections, and those free the call too
        have hrej : rejects reply = true := by
          rcases (returnsDue_iff reply).1 hr with h | h
          · exact h
          · rw [show misread reply = false from hok] at h; cases h
        simp [Call.held, hrej] at hh
      | confirmed _ _ hf => exact ⟨_, Desk.obligation_modify_self hf.pk ho.row, by rw [hf.status]; simp⟩
  | @recorded o hr =>
    refine h.frame hin (fun i c hc => ⟨c, hc, rfl, id⟩) fun i c hc hh => ?_
    obtain ⟨o', ho', hs⟩ := h.notDue i c hc hh
    exact ⟨o', Desk.obligation_append ho', hs⟩
  | completed | asked | dropped => exact h.frame hin (fun i c hc => ⟨c, hc, rfl, id⟩) h.notDue
  | processed _ _ _ hd =>
    refine h.frame hin (fun i c hc => ⟨c, hc, rfl, id⟩) fun i c hc hh => ?_
    obtain ⟨o', ho', hs⟩ := h.notDue i c hc hh
    exact ⟨o', by simpa only [Desk.obligation, processVerification_obligations hd] using ho', hs⟩

theorem start (hcalls : g.calls = []) (hkeyed : (g.desk.obligations.map (·.pk)).Nodup) : SentOnce g := by
  refine ⟨⟨hkeyed, ?_, ?_⟩, ?_, ?_⟩ <;> simp [hcalls]

end SentOnce

/-- In a run without misread answers, an obligation with a request that was sent and not definitely rejected is
not `DUE`, and no later call is about it. -/
theorem refund_never_sent_twice {g : Gateway} (hcalls : g.calls = [])
    (hkeyed : (g.desk.obligations.map (·.pk)).Nodup) {as : List Action}
    (hok : Machine.Meets Gateway.step Readable g as) {i : ℕ} {c : Call}
    (hc : (Machine.run Gateway.step g as).calls[i]? = some c) (hu : c.undecided) :
    (∃ o, (Machine.run Gateway.step g as).desk.obligation c.refundId = some o ∧ o.status ≠ .due) ∧
      ∀ (j : ℕ) (c' : Call), i < j → (Machine.run Gateway.step g as).calls[j]? = some c' →
        c'.refundId ≠ c.refundId := by
  have h : SentOnce (Machine.run Gateway.step g as) :=
    hok.inv (fun _ _ h hok => h.step hok) (.start hcalls hkeyed)
  have hh := Call.held_of_undecided hu
  refine ⟨h.notDue i c hc hh, fun j c' hij hc' hid => ?_⟩
  rw [h.last i j c c' hij hc hc' hid.symm] at hh
  cases hh

/-- A refund that is sent and answered by a code of manual review, submitted again and sent again. -/
def reviewedRun : List Action :=
  [.submit liveSettings refundPk 2, .send 0 3,
   .answer 0 (.response 200 (.object (answerDocument "000.400.020"))) none 4,
   .submit liveSettings refundPk 5, .send 1 6]

/-- A refund that is sent and stays without an answer. -/
theorem refund_never_sent_twice_lost :
    (∃ o, (Machine.run Gateway.step paidBooking
        [.submit liveSettings refundPk 2, .send 0 3, .answer 0 .timeout none 4]).desk.obligation refundPk = some o ∧
      o.status ≠ .due) := by
  have hrun : (Machine.run Gateway.step paidBooking
      [.submit liveSettings refundPk 2, .send 0 3, .answer 0 .timeout none 4]).calls[0]? =
        some ⟨⟨liveSettings, dueRefund, cardPayment, "100.00"⟩, .answered .timeout⟩ := by decide +kernel
  exact (refund_never_sent_twice rfl (by decide +kernel) (by decide +kernel) hrun rfl).1

/-- The provider holds the refund for a manual review, the obligation is `DUE` again, and the refund is submitted
and sent a second time. -/
theorem reviewed_refund_sent_twice :
    ∃ c c', (Machine.run Gateway.step paidBooking reviewedRun).calls[0]? = some c ∧
      (Machine.run Gateway.step paidBooking reviewedRun).calls[1]? = some c' ∧
      c.undecided ∧ c'.phase = .sent ∧ c'.refundId = c.refundId := by
  have hfirst : ((Machine.run Gateway.step paidBooking reviewedRun).calls[0]?.any fun c =>
      c.undecided && c.refundId == refundPk) = true := by decide +kernel
  have hsecond : ((Machine.run Gateway.step paidBooking reviewedRun).calls[1]?.any fun c =>
      c.phase == .sent && c.refundId == refundPk) = true := by decide +kernel
  obtain ⟨c, hc, hp⟩ := (Option.any_eq_true _ _).1 hfirst
  obtain ⟨c', hc', hp'⟩ := (Option.any_eq_true _ _).1 hsecond
  simp only [Bool.and_eq_true, beq_iff_eq] at hp hp'
  exact ⟨c, c', hc, hc', hp.1, hp'.1, hp'.2.trans hp.2.symm⟩

end Apartments.HyperPay
