import Apartments.HyperPay.Gateway

/-!
# Refunds in flight

`Prepared` and `Settled` are the specifications of the two transactions of a refund call: what `_prepare`
has checked when it lets a refund through, and what the end of `submit` does to the desk for each kind of
answer. `InFlight` is the invariant of the gateway that needs nothing else: the obligation of an open call is
`PROCESSING` under the provider id it was submitted against, and open calls are about different obligations.
-/

namespace Apartments.HyperPay

open Payments

namespace Desk
variable {d : Desk} {pk k : Uuid} {o : RefundObligation} {p : PaymentAttempt}
  {f : RefundObligation → RefundObligation} {fp : PaymentAttempt → PaymentAttempt}

theorem obligation_mem (h : d.obligation pk = some o) : o ∈ d.obligations := Table.mem_of_get h

theorem obligation_pk (h : d.obligation pk = some o) : o.pk = pk := Table.key_of_get h

theorem payment_mem (h : d.payment pk = some p) : p ∈ d.payments := Table.mem_of_get h

theorem payment_pk (h : d.payment pk = some p) : p.pk = pk := Table.key_of_get h

theorem obligation_modify_self (hf : ∀ o, (f o).pk = o.pk) (h : d.obligation pk = some o) :
    (d.modifyObligation pk f).obligation pk = some (f o) :=
  (Table.get_modify_self fun a h => (hf a).trans h).trans (congrArg (Option.map f) h)

theorem obligation_modify_ne (hf : ∀ o, (f o).pk = o.pk) (hk : k ≠ pk) :
    (d.modifyObligation pk f).obligation k = d.obligation k := Table.get_modify_ne (fun a h => (hf a).trans h) hk

theorem obligation_append {o' : RefundObligation} (h : d.obligation pk = some o) :
    Desk.obligation { d with obligations := d.obligations ++ [o'] } pk = some o := by
  simp only [Desk.obligation, Table.get, List.find?_append] at h ⊢
  rw [h]; rfl

theorem payment_modify_self (hf : ∀ p, (fp p).pk = p.pk) (h : d.payment pk = some p) :
    (d.modifyPayment pk fp).payment pk = some (fp p) :=
  (Table.get_modify_self fun a h => (hf a).trans h).trans (congrArg (Option.map fp) h)

theorem payment_modify_ne (hf : ∀ p, (fp p).pk = p.pk) (hk : k ≠ pk) :
    (d.modifyPayment pk fp).payment k = d.payment k := Table.get_modify_ne (fun a h => (hf a).trans h) hk

@[simp] theorem obligations_modifyPayment : (d.modifyPayment pk fp).obligations = d.obligations := rfl

@[simp] theorem bookingIntent_modifyPayment : (d.modifyPayment pk fp).bookingIntent = d.bookingIntent := rfl

@[simp] theorem bookingIntent_modifyObligation : (d.modifyObligation pk f).bookingIntent = d.bookingIntent := rfl

@[simp] theorem payments_modifyObligation : (d.modifyObligation pk f).payments = d.payments := rfl

@[simp] theorem payment_modifyObligation : (d.modifyObligation pk f).payment k = d.payment k := rfl

@[simp] theorem obligation_modifyPayment : (d.modifyPayment pk fp).obligation k = d.obligation k := rfl

theorem pks_modifyObligation (hf : ∀ o, (f o).pk = o.pk) :
    (d.modifyObligation pk f).obligations.map (·.pk) = d.obligations.map (·.pk) := Table.map_key_modify fun a h => (hf a).trans h

theorem pks_modifyPayment (hf : ∀ p, (fp p).pk = p.pk) :
    (d.modifyPayment pk fp).payments.map (·.pk) = d.payments.map (·.pk) := Table.map_key_modify fun a h => (hf a).trans h

end Desk

/-- `f` rewrites an obligation without touching what the refund ceiling counts, and sets its status by `st`. -/
structure Edits (f : RefundObligation → RefundObligation) (st : RefundStatus → RefundStatus) : Prop where
  pk : ∀ o, (f o).pk = o.pk
  status : ∀ o, (f o).status = st o.status
  amount : ∀ o, (f o).amount = o.amount
  paymentAttempt : ∀ o, (f o).calculation.paymentAttempt = o.calculation.paymentAttempt
  original : ∀ o, (f o).calculation.detail.originalPaymentId = o.calculation.detail.originalPaymentId
  currency : ∀ o, (f o).currency = o.currency

/-- What `_prepare` has checked of the refund and the payment it returns. -/
structure Prepared (d : Desk) (refundId : Uuid) (o : RefundObligation) (p : PaymentAttempt) : Prop where
  row : d.obligation refundId = some o
  due : o.status = .due
  positive : 0 < o.amount
  noReceipt : d.offlinePaymentReceipt = none
  payment : p ∈ d.payments
  intent : d.bookingIntent = some p.bookingIntent
  refundable : refundable p = true
  chosen : o.calculation.paymentAttempt = some p.pk ∨
    o.calculation.paymentAttempt = none ∧ p.providerPaymentId ≠ none
  room : o.amount ≤ p.amount - previouslyRefunded d o p

theorem choosePayment_eq_some {d : Desk} {intent : Uuid} {o : RefundObligation} {p : PaymentAttempt}
    (h : choosePayment d intent o = some p) :
    p ∈ d.payments ∧ p.bookingIntent = intent ∧ refundable p = true ∧
      (o.calculation.paymentAttempt = some p.pk ∨
        o.calculation.paymentAttempt = none ∧ p.providerPaymentId ≠ none) := by
  unfold choosePayment at h
  split at h
  · rename_i allocated ha
    have hp := List.find?_some h
    simp only [Bool.and_eq_true, beq_iff_eq] at hp
    obtain ⟨⟨⟨⟨⟨hpk, hintent⟩, -⟩, -⟩, hr⟩, -⟩ := hp
    exact ⟨List.mem_of_find?_eq_some h, hintent, hr, .inl (by rw [ha, hpk])⟩
  · rename_i ha
    obtain ⟨hmem, hp⟩ := List.mem_filter.1 (Table.mem_of_first h)
    simp only [Bool.and_eq_true, beq_iff_eq, bne_iff_ne] at hp
    obtain ⟨⟨⟨⟨⟨⟨hintent, -⟩, -⟩, hr⟩, -⟩, hid⟩, -⟩ := hp
    exact ⟨hmem, hintent, hr, .inr ⟨ha, hid⟩⟩

theorem prepare_eq_ok {d : Desk} {refundId : Uuid} {o : RefundObligation} {p : PaymentAttempt}
    (h : prepare d refundId = .ok (o, p)) : Prepared d refundId o p := by
  unfold prepare at h
  split at h
  · cases h
  rename_i refund hrow
  split at h
  · cases h
  rename_i hdue
  split at h
  · cases h
  rename_i hreceipt
  split at h
  · cases h
  split at h
  · cases h
  rename_i intent hintent
  split at h
  · cases h
  rename_i payment hchosen
  split at h
  · cases h
  rename_i hroom
  cases h
  obtain ⟨hmem, hpi, hr, hc⟩ := choosePayment_eq_some hchosen
  simp only [not_or, not_not, not_le] at hdue
  exact ⟨hrow, hdue.1, hdue.2, by simpa using hreceipt, hmem, by rw [hintent, hpi], hr, hc, not_lt.1 hroom⟩

/-- The answer confirms the refund. -/
def confirms (reply : Reply) : Bool :=
  match request reply with
  | .ok document => mapResultCode document.code == .success
  | .error _ => false

/-- The answer makes `submit` set the obligation back to `DUE`. -/
def returnsDue (reply : Reply) : Bool :=
  match request reply with
  | .ok document => mapResultCode document.code != .success && mapResultCode document.code != .pending
  | .error (.hyperPay error) =>
    error.errorClass == .authentication || error.errorClass == .configuration || error.errorClass == .response
  | .error _ => false

/-- What the end of `submit` does to a desk that has the obligation of the call. -/
inductive Settled (s : Submission) (reply : Reply) (d : Desk) : Desk → Prop
  | noted {f} : confirms reply = false → returnsDue reply = false → Edits f id →
      Settled s reply d (d.modifyObligation s.refund.pk f)
  | returned {f} : returnsDue reply = true → Edits f (fun _ => .due) →
      Settled s reply d (d.modifyObligation s.refund.pk f)
  | confirmed {f} : confirms reply = true → returnsDue reply = false → Edits f (fun _ => .transferred) →
      Settled s reply d
        ((d.modifyObligation s.refund.pk f).setPaymentStatus s.payment.pk
          (refundedStatus (d.modifyObligation s.refund.pk f) s.payment))

theorem Edits.restoreDue (errorCode : String) (now : Time) : Edits (restoredRow errorCode now) fun _ => .due :=
  ⟨fun _ => rfl, fun _ => rfl, fun _ => rfl, fun _ => rfl, fun _ => rfl, fun _ => rfl⟩

theorem settle_settled {s : Submission} {d : Desk} {o : RefundObligation} (h : d.obligation s.refund.pk = some o)
    (reply : Reply) (operator : Option ℕ) (now : Time) : Settled s reply d (settle s reply operator now d).1 := by
  have hpk : o.pk = s.refund.pk := Desk.obligation_pk h
  have hskip : d.modifyObligation s.refund.pk id = d := by simp [Desk.modifyObligation, Table.modify]
  unfold settle
  cases hr : request reply with
  | ok document =>
    simp only [h, recordResponse, hpk]
    cases hc : mapResultCode document.code with
    | success =>
      have h1 : confirms reply = true := by simp [confirms, hr, hc]
      have h2 : returnsDue reply = false := by simp [returnsDue, hr, hc]
      exact .confirmed h1 h2 ⟨fun _ => rfl, fun _ => rfl, fun _ => rfl, fun _ => rfl, fun _ => rfl, fun _ => rfl⟩
    | pending =>
      have h1 : confirms reply = false := by simp [confirms, hr, hc]
      have h2 : returnsDue reply = false := by simp [returnsDue, hr, hc]
      exact .noted h1 h2 ⟨fun _ => rfl, fun _ => rfl, fun _ => rfl, fun _ => rfl, fun _ => rfl, fun _ => rfl⟩
    | failed | cancelled | review | unknown =>
      have h1 : returnsDue reply = true := by simp [returnsDue, hr, hc]
      exact .returned h1 ⟨fun _ => rfl, fun _ => rfl, fun _ => rfl, fun _ => rfl, fun _ => rfl, fun _ => rfl⟩
  | error failure =>
    have h1 : confirms reply = false := by simp [confirms, hr]
    -- an exception that `submit` does not catch leaves the desk as it is
    have hkeep (h2 : returnsDue reply = false) : Settled s reply d d := by
      have := Settled.noted (s := s) (d := d) h1 h2 (f := id)
        ⟨fun _ => rfl, fun _ => rfl, fun _ => rfl, fun _ => rfl, fun _ => rfl, fun _ => rfl⟩
      rwa [hskip] at this
    cases failure with
    | hyperPay error =>
      obtain ⟨errorClass, code⟩ := error
      cases errorClass with
      | connection =>
        have h2 : returnsDue reply = false := by simp [returnsDue, hr]
        exact .noted h1 h2 ⟨fun _ => rfl, fun _ => rfl, fun _ => rfl, fun _ => rfl, fun _ => rfl, fun _ => rfl⟩
      | authentication | configuration | response =>
        have h2 : returnsDue reply = true := by simp [returnsDue, hr]
        exact .returned h2 (.restoreDue code now)
      | checkout | verification | refund => exact hkeep (by simp [returnsDue, hr])
    | doesNotExist | integrityError | otherError => exact hkeep (by simp [returnsDue, hr])

/-- The obligation of an open call. -/
structure Processing (d : Desk) (s : Submission) (o : RefundObligation) : Prop where
  row : d.obligation s.refund.pk = some o
  status : o.status = .processing
  positive : 0 < o.amount
  original : o.calculation.detail.originalPaymentId = s.payment.providerPaymentId

structure InFlight (g : Gateway) : Prop where
  keyed : (g.desk.obligations.map (·.pk)).Nodup
  processing : ∀ (i : ℕ) (c : Call), g.calls[i]? = some c → c.isOpen → ∃ o, Processing g.desk c.submission o
  alone : ∀ (i j : ℕ) (c c' : Call), g.calls[i]? = some c → g.calls[j]? = some c' → c.isOpen → c'.isOpen →
    c.refundId = c'.refundId → i = j

theorem not_isOpen_answered (s : Submission) (reply : Reply) : ¬ Call.isOpen ⟨s, .answered reply⟩ := by
  simp [Call.isOpen]

theorem not_isOpen_notSent (s : Submission) : ¬ Call.isOpen ⟨s, .notSent⟩ := by
  simp [Call.isOpen]

/-- Closing call `i` leaves the open calls at the other indices. -/
theorem open_of_set {calls : List Call} {i j : ℕ} {c c' : Call} (hc' : ¬ c'.isOpen)
    (h : (calls.set i c')[j]? = some c) (ho : c.isOpen) : i ≠ j ∧ calls[j]? = some c := by
  rw [List.getElem?_set] at h
  split at h
  · split at h
    · cases h; exact absurd ho hc'
    · cases h
  · exact ⟨by assumption, h⟩

theorem getElem?_concat {calls : List Call} {i : ℕ} {c c' : Call} (h : (calls ++ [c'])[i]? = some c) :
    calls[i]? = some c ∨ i = calls.length ∧ c = c' := by
  rw [List.getElem?_append] at h
  split at h
  · exact .inl h
  · rw [List.getElem?_singleton] at h
    split at h
    · exact .inr ⟨by omega, (Option.some.inj h).symm⟩
    · cases h

theorem processVerification_eq_ok {settings : Settings} {p : PaymentAttempt} {document : Document} {now : Time}
    {d d' : Desk} {done : Option Completion} (h : processVerification settings p document now d = .ok (d', done)) :
    (verifiedSuccess p = true ∧ d' = d ∧ done = none) ∨
      (verifiedSuccess p = false ∧ idTaken d (rewritten settings document now p) = false ∧
        d' = d.modifyPayment p.pk (rewritten settings document now) ∧
        done = if verifiedClass settings p document = .success then
          some (completion (rewritten settings document now p)) else none) := by
  unfold processVerification at h
  split at h
  · cases h; exact .inl ⟨by assumption, rfl, rfl⟩
  rename_i hv
  simp only at h
  split at h
  · cases h
  rename_i ht
  refine .inr ⟨by simpa using hv, by simpa using ht, ?_⟩
  split at h <;> cases h <;> simp [*]

theorem processVerification_obligations {settings : Settings} {p : PaymentAttempt} {document : Document} {now : Time}
    {d d' : Desk} {done : Option Completion} (h : processVerification settings p document now d = .ok (d', done)) :
    d'.obligations = d.obligations := by
  rcases processVerification_eq_ok h with ⟨-, rfl, -⟩ | ⟨-, -, rfl, -⟩ <;> rfl

theorem Settled.obligations {s : Submission} {reply : Reply} {d d' : Desk} (h : Settled s reply d d') :
    ∃ f st, Edits f st ∧ d'.obligations = (d.modifyObligation s.refund.pk f).obligations := by
  cases h with
  | noted _ _ hf => exact ⟨_, _, hf, rfl⟩
  | returned _ hf => exact ⟨_, _, hf, rfl⟩
  | confirmed _ _ hf => exact ⟨_, _, hf, rfl⟩

theorem recordSubmission_pk (now : Time) (o : RefundObligation) (p : PaymentAttempt) (d : Desk) :
    (recordSubmission now o p d).obligations.map (·.pk) = d.obligations.map (·.pk) :=
  Desk.pks_modifyObligation fun _ => rfl

theorem recordSubmission_ne {now : Time} {o : RefundObligation} {p : PaymentAttempt} {d : Desk} {pk : Uuid}
    (h : pk ≠ o.pk) : (recordSubmission now o p d).obligation pk = d.obligation pk :=
  Desk.obligation_modify_ne (fun _ => rfl) h

namespace InFlight
variable {g g' : Gateway}

/-- The invariant survives a step whose open calls were open before and kept their obligations. -/
theorem frame (h : InFlight g) (hkeyed : (g'.desk.obligations.map (·.pk)).Nodup)
    (hcalls : ∀ (i : ℕ) (c : Call), g'.calls[i]? = some c → c.isOpen →
      ∃ c₀, g.calls[i]? = some c₀ ∧ c₀.isOpen ∧ c₀.submission = c.submission ∧
        g'.desk.obligation c.refundId = g.desk.obligation c.refundId) : InFlight g' where
  keyed := hkeyed
  processing i c hc ho := by
    obtain ⟨c₀, hc₀, ho₀, hs, hrow⟩ := hcalls i c hc ho
    obtain ⟨o, hp⟩ := h.processing i c₀ hc₀ ho₀
    rw [hs] at hp
    exact ⟨o, hrow.trans hp.row, hp.status, hp.positive, hp.original⟩
  alone i j c c' hc hc' ho ho' hid := by
    obtain ⟨c₀, hc₀, ho₀, hs, -⟩ := hcalls i c hc ho
    obtain ⟨c₁, hc₁, ho₁, hs', -⟩ := hcalls j c' hc' ho'
    refine h.alone i j c₀ c₁ hc₀ hc₁ ho₀ ho₁ ?_
    rwa [Call.refundId, Call.refundId, hs, hs']

/-- Closing a call frees its obligation: the obligation may be rewritten at will. -/
theorem close (h : InFlight g) {i : ℕ} {s : Submission} {phase : Phase} {c : Call} {d : Desk}
    {f : RefundObligation → RefundObligation} (hi : g.calls[i]? = some ⟨s, phase⟩) (ho : Call.isOpen ⟨s, phase⟩)
    (hc : ¬ c.isOpen) (hf : ∀ o, (f o).pk = o.pk)
    (hd : d.obligations = (g.desk.modifyObligation s.refund.pk f).obligations) :
    InFlight { g with desk := d, calls := g.calls.set i c } := by
  have hrow (k : Uuid) : d.obligation k = (g.desk.modifyObligation s.refund.pk f).obligation k := by
    simp only [Desk.obligation, hd]
  refine h.frame ?_ fun j c' hj ho' => ?_
  · rw [hd, Desk.pks_modifyObligation hf]; exact h.keyed
  · obtain ⟨hij, hj⟩ := open_of_set hc hj ho'
    refine ⟨c', hj, ho', rfl, ?_⟩
    have hne : c'.refundId ≠ s.refund.pk := fun hid => hij (h.alone i j _ c' hi hj ho ho' hid.symm)
    rw [hrow, Desk.obligation_modify_ne hf hne]

theorem submitted (h : InFlight g) {settings : Settings} {refundId : Uuid} {now : Time} {o : RefundObligation}
    {p : PaymentAttempt} {amount : String} (hp : Prepared g.desk refundId o p) :
    InFlight { g with
      desk := recordSubmission now o p g.desk
      calls := g.calls ++ [⟨⟨settings, o, p, amount⟩, .prepared⟩] } := by
  have hpk := Desk.obligation_pk hp.row
  have hrow : g.desk.obligation o.pk = some o := by rw [hpk]; exact hp.row
  -- an open call is about a `PROCESSING` obligation, and this one was `DUE`
  have hfree (i : ℕ) (c : Call) (hc : g.calls[i]? = some c) (ho : c.isOpen) : c.refundId ≠ o.pk := by
    intro hid
    obtain ⟨o', ho'⟩ := h.processing i c hc ho
    have hoo : o' = o := by
      have := ho'.row
      rw [show c.submission.refund.pk = o.pk from hid, hrow] at this
      exact (Option.some.inj this).symm
    have := ho'.status
    rw [hoo, hp.due] at this
    cases this
  refine ⟨?_, fun i c hc ho => ?_, fun i j c c' hc hc' ho ho' hid => ?_⟩
  · rw [recordSubmission_pk]; exact h.keyed
  · rcases getElem?_concat hc with hc | ⟨-, rfl⟩
    · obtain ⟨o', ho'⟩ := h.processing i c hc ho
      refine ⟨o', ?_, ho'.status, ho'.positive, ho'.original⟩
      exact (recordSubmission_ne (hfree i c hc ho)).trans ho'.row
    · exact ⟨_, Desk.obligation_modify_self (fun _ => rfl) hrow, rfl, hp.positive, rfl⟩
  · rcases getElem?_concat hc with hc | ⟨rfl, rfl⟩ <;> rcases getElem?_concat hc' with hc' | ⟨rfl, rfl⟩
    · exact h.alone i j c c' hc hc' ho ho' hid
    · exact absurd hid (hfree i c hc ho)
    · exact absurd hid.symm (hfree j c' hc' ho')
    · rfl

theorem step (h : InFlight g) (a : Action) : InFlight (g.step a) := by
  have hm := Gateway.step_move g a
  generalize g.step a = g' at hm ⊢
  cases hm with
  | stay => exact h
  | submitted hp _ => exact h.submitted (prepare_eq_ok hp)
  | sent hi =>
    refine h.frame h.keyed fun j c hj ho => ?_
    rw [List.getElem?_set] at hj
    split at hj
    · split at hj
      · cases hj; rename_i hij _; subst hij; exact ⟨_, hi, .inl rfl, rfl, rfl⟩
      · cases hj
    · exact ⟨c, hj, ho, rfl, rfl⟩
  | unsent hi => exact h.close hi (.inl rfl) (not_isOpen_notSent _) (Edits.restoreDue _ _).pk rfl
  | @answered i reply operator now s hi =>
    obtain ⟨o, ho⟩ := h.processing i _ hi (.inr rfl)
    obtain ⟨f, st, hf, hd⟩ := (settle_settled ho.row reply operator now).obligations
    exact h.close hi (.inr rfl) (not_isOpen_answered _ _) hf.pk hd
  | @recorded o hr =>
    refine h.frame ?_ fun i c hc ho => ⟨c, hc, ho, rfl, ?_⟩
    · rw [List.map_append, List.nodup_append]
      refine ⟨h.keyed, List.nodup_singleton _, fun a ha b hb hab => hr.1 ?_⟩
      have hb' : b = o.pk := List.mem_singleton.1 hb
      rw [← hb', ← hab]; exact ha
    · obtain ⟨o', ho'⟩ := h.processing i c hc ho
      exact (Desk.obligation_append ho'.row).trans ho'.row.symm
  | completed | asked | dropped => exact h.frame h.keyed fun i c hc ho => ⟨c, hc, ho, rfl, rfl⟩
  | processed _ _ _ hd =>
    have hobl := processVerification_obligations hd
    exact h.frame (by rw [hobl]; exact h.keyed)
      fun i c hc ho => ⟨c, hc, ho, rfl, by simp only [Desk.obligation, hobl]⟩

end InFlight

end Apartments.HyperPay
