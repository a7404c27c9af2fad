import Apartments.Mornings.Outbox

/-!
# What an answer goes on telling

An answer of `read_event` is for the revision that was read. While the stay keeps the revision, the event of the answer is
still the one that tells the stay, and the token it was signed with outlives the stay: a window is checked at most
fourteen days before it begins, and a token is good for fifteen.
-/

namespace Apartments.Morning

open Payments HyperPay Verification

variable {F : Type} {on : Prop} {site : Site F} {w w' : World F}

/-- The end of a window that was checked by `now` (`validate_window`). -/
def InTime (stop now : Time) : Prop := stop ≤ now + (14 * 86400 + 13 * 3600)

/-- The windows that were read and told, while `on` says that events are read at all, and the status of a stay that has
been told. -/
structure Answering (on : Prop) (w : World F) : Prop where
  inTime : InTime w.stay.endsAt w.now
  reads : ∀ r ∈ w.reads, on ∧ r.stay.pk = w.stay.pk ∧ InTime r.stay.endsAt w.now
  answers : ∀ a ∈ w.answers, on ∧ a.stay.pk = w.stay.pk ∧ InTime a.event.values.facts.endsAt a.signedAt ∧
    ∃ e ∈ w.events, e.revision = a.event.revision ∧ e.values = a.event.values
  processing : 1 ≤ w.stay.communicationRevision → w.stay.status ≠ .processing
  cancelled : ∀ e ∈ w.events, e.revision = w.stay.communicationRevision → e.values.facts.status = .cancelled →
    w.stay.status ≠ .paid

/-- What was answered stays answered, for the same stay. -/
structure Follows (w w' : World F) : Prop where
  pk : w'.stay.pk = w.stay.pk
  answers : ∀ a ∈ w.answers, a ∈ w'.answers

theorem Follows.refl (w : World F) : Follows w w := ⟨rfl, fun _ ha => ha⟩

/-- What a save may write of the stay. -/
structure Saves (w w' : World F) : Prop where
  pk : w'.stay.pk = w.stay.pk
  revision : w'.stay.communicationRevision = w.stay.communicationRevision
  inTime : InTime w'.stay.endsAt w.now
  status : 1 ≤ w.stay.communicationRevision →
    w'.stay.status ≠ .processing ∧ (w'.stay.status = .paid → w.stay.status = .paid)
  outbox : w'.events = w.events ∧ w'.reads = w.reads ∧ w'.answers = w.answers ∧ w'.now = w.now

theorem Answering.same (h : Answering on w) (hs : w'.stay = w.stay) (ho : w'.events = w.events ∧ w'.reads = w.reads ∧
    w'.answers = w.answers ∧ w'.now = w.now) : Saves w w' :=
  ⟨by rw [hs], by rw [hs], by rw [hs]; exact h.inTime, fun hr => by rw [hs]; exact ⟨h.processing hr, id⟩, ho⟩

theorem Answering.saves (h : Answering on w) (hb : Base site w) (hs : Saves w w') : Answering on w' ∧ Follows w w' := by
  obtain ⟨hev, hre, han, hnow⟩ := hs.outbox
  refine ⟨⟨hnow ▸ hs.inTime, ?_, ?_, ?_, ?_⟩, hs.pk, by rw [han]; exact fun _ ha => ha⟩
  · rw [hre, hs.pk, hnow]
    exact h.reads
  · rw [han, hs.pk, hev]
    exact h.answers
  · rw [hs.revision]
    exact fun hr => (hs.status hr).1
  · rw [hev, hs.revision]
    intro e he hr hc hp
    have h1 : 1 ≤ w.stay.communicationRevision := hr ▸ (hb.revision_mem he).1
    exact h.cancelled e he hr hc ((hs.status h1).2 hp)

/-- What an event tells lasts in the outbox. -/
theorem values_supersede {e : Event F} {events : List (Event F)} (new : Event F)
    (h : ∃ x ∈ events, x.revision = e.revision ∧ x.values = e.values) :
    ∃ x ∈ events.map supersede ++ [new], x.revision = e.revision ∧ x.values = e.values := by
  obtain ⟨x, hx, hr, hv⟩ := h
  exact ⟨supersede x, List.mem_append_left _ (List.mem_map_of_mem hx), by rw [supersede_revision, hr],
    by rw [supersede_values, hv]⟩

theorem capturable_told {attempts : List MorningPaymentAttempt} {now : Time} {s : Stay F} {phone : String}
    (h : capturable site attempts now s = some phone) : told s = true := by
  unfold capturable at h
  split_ifs at h with h1
  simpa using fun hf => h1 (.inr hf)

/-- The new event of a save tells the stay that it has written. -/
theorem Answering.push {pk : Uuid} {phone : String} {listing : Listing} (h : Answering on w)
    (hle : ∀ e ∈ w.events, e.revision ≤ w.stay.communicationRevision) (ht : told w.stay = true) :
    Answering on (w.push site pk ⟨w.stay.pk, factsOf w.stay phone, listing⟩) := by
  refine ⟨h.inTime, h.reads, fun a ha => ?_, fun _ hp => ?_, fun e he hr hc => ?_⟩
  · obtain ⟨hon, hpk, hin, hlast⟩ := h.answers a ha
    exact ⟨hon, hpk, hin, values_supersede _ hlast⟩
  · have hp : w.stay.status = .processing := hp
    simp [told, hp] at ht
  · rcases List.mem_append.1 he with he | he
    · obtain ⟨x, hx, rfl⟩ := List.mem_map.1 he
      have hr : x.revision = w.stay.communicationRevision + 1 := (supersede_revision x).symm.trans hr
      have := hle x hx
      omega
    · rw [List.mem_singleton.1 he] at hc
      have hc : w.stay.status = .cancelled := hc
      intro hp
      have hp : w.stay.status = .paid := hp
      rw [hc] at hp
      cases hp

section Commit

variable [DecidableEq F] {event : Uuid}

/-- What a save comes to: it is rolled back, or written, or written with a new event. -/
theorem commit_cases (site : Site F) (event : Uuid) (w w' : World F) :
    World.commit site event w w' = w ∨ World.commit site event w w' = w' ∨
      ∃ phone, capturable site w'.attempts w'.now w'.stay = some phone ∧
        World.commit site event w w' =
          w'.push site event ⟨w'.stay.pk, factsOf w'.stay phone, w'.listings w'.stay.property⟩ := by
  unfold World.commit
  split
  · exact .inl rfl
  rcases capture_cases site (w'.listings w'.stay.property) w'.attempts w'.now event w'.stay w'.events with
    ⟨heq, -⟩ | ⟨phone, hc, heq⟩
  · exact .inr (.inl (by simp only [heq]))
  · exact .inr (.inr ⟨phone, hc, by simp only [heq]; rfl⟩)

theorem Answering.commit (h : Answering on w) (hb : Base site w) (hs : Saves w w') :
    Answering on (World.commit site event w w') ∧ Follows w (World.commit site event w w') := by
  obtain ⟨hok, hfollows⟩ := h.saves hb hs
  rcases commit_cases site event w w' with heq | heq | ⟨phone, hc, heq⟩
  · rw [heq]
    exact ⟨h, .refl w⟩
  · rw [heq]
    exact ⟨hok, hfollows⟩
  · rw [heq]
    refine ⟨hok.push (fun e he => ?_) (capturable_told hc), hfollows.pk, hfollows.answers⟩
    rw [hs.outbox.1] at he
    rw [hs.revision]
    exact (hb.revision_mem he).2

end Commit

/-! ### Steps -/

/-- A stay that has been told has been paid for. -/
theorem Base.paid (h : Base site w) (hr : 1 ≤ w.stay.communicationRevision) : w.stay.paidAt.isSome = true := by
  have hv := h.verified hr
  simp only [verifiedPayment, Bool.and_eq_true] at hv
  exact hv.1

/-- A verification of a stay that is not being paid for does not make it paid. -/
theorem morningStayAfter_status {a : MorningPaymentAttempt} {now : Time} {s : MorningStay} (h : s.status ≠ .processing) :
    (morningStayAfter a now s).status ≠ .processing ∧
      ((morningStayAfter a now s).status = .paid → s.status = .paid) := by
  unfold morningStayAfter
  split
  · simp [h]
  · simp
  · simp
  · simp
  · simp
  · exact ⟨h, id⟩

theorem morningStayAfter_pk {a : MorningPaymentAttempt} {now : Time} {s : MorningStay} :
    (morningStayAfter a now s).pk = s.pk ∧ (morningStayAfter a now s).endsAt = s.endsAt := by
  unfold morningStayAfter
  split <;> exact ⟨rfl, rfl⟩

theorem InTime.later {stop now later : Time} (h : InTime stop now) (hle : now ≤ later) : InTime stop later :=
  le_trans h (Nat.add_le_add_right hle _)

/-- A window that was checked is in time. -/
theorem inTime_validWindow {s : Stay F} {asked : ChangeAsked} (h : World.validWindow site s asked = true) :
    InTime asked.endsAt asked.checkedAt := by
  simp only [World.validWindow, Bool.and_eq_true, decide_eq_true_eq] at h
  have hshort := site.sameMorning_short _ _ _ h.1.1.1
  exact (hshort.trans (Nat.add_le_add_right h.2 _)).trans_eq (Nat.add_assoc ..)

/-- The end of a stay whose window is not checked again stays what it is. -/
theorem change_endsAt {s : Stay F} {asked : ChangeAsked} (h : World.windowChanged s asked = false) :
    s.endsAt = asked.endsAt := by
  simp only [World.windowChanged, Bool.or_eq_false_iff, bne_eq_false_iff_eq] at h
  exact h.1.2

theorem Answering.modifyEvent {pk : Uuid} {f : Event F → Event F} {workers : List Uuid} (h : Answering on w)
    (hf : ∀ e, (f e).revision = e.revision ∧ (f e).values = e.values) :
    Answering on { w.modifyEvent pk f with workers := workers } ∧
      Follows w { w.modifyEvent pk f with workers := workers } := by
  refine ⟨⟨h.inTime, h.reads, fun a ha => ?_, h.processing, fun e he hr hc => ?_⟩, rfl, fun _ ha => ha⟩
  · obtain ⟨hon, hpk, hin, e, he, hr, hv⟩ := h.answers a ha
    refine ⟨hon, hpk, hin, _, Table.mem_modify.2 ⟨e, he, rfl⟩, ?_⟩
    split
    · exact ⟨(hf e).1.trans hr, (hf e).2.trans hv⟩
    · exact ⟨hr, hv⟩
  · obtain ⟨x, hx, rfl⟩ := Table.mem_modify.1 he
    split at hr
    · rename_i hk
      rw [if_pos hk, (hf x).2] at hc
      exact h.cancelled x hx ((hf x).1.symm.trans hr) hc
    · rename_i hk
      rw [if_neg hk] at hc
      exact h.cancelled x hx hr hc

theorem Answering.claimEvent {skipped : List Uuid} (h : Answering on w) :
    Answering on (w.claimEvent skipped) ∧ Follows w (w.claimEvent skipped) := by
  unfold World.claimEvent
  split
  · exact ⟨h, .refl w⟩
  split
  · exact h.modifyEvent fun _ => ⟨rfl, rfl⟩
  · exact h.modifyEvent fun _ => ⟨rfl, rfl⟩

theorem Answering.answered {i : ℕ} {reply : Reply} (h : Answering on w) :
    Answering on (w.answered i reply) ∧ Follows w (w.answered i reply) := by
  unfold World.answered
  split
  · exact ⟨h, .refl w⟩
  refine h.modifyEvent fun e => ?_
  unfold World.answeredEvent
  split <;> exact ⟨rfl, rfl⟩

/-- The reads go on with stays that were read. -/
theorem Answering.reading {reads : List (Read F)} (h : Answering on w)
    (hr : ∀ r ∈ reads, on ∧ r.stay.pk = w.stay.pk ∧ InTime r.stay.endsAt w.now) :
    Answering on { w with reads := reads } ∧ Follows w { w with reads := reads } :=
  ⟨⟨h.inTime, hr, h.answers, h.processing, h.cancelled⟩, rfl, fun _ ha => ha⟩

theorem Answering.read {event : Uuid} {authorised : Bool} (h : Answering on w) (hread : authorised = true → on) :
    Answering on (w.read event authorised) ∧ Follows w (w.read event authorised) := by
  unfold World.read
  split
  · rename_i hok
    refine h.reading fun r hr => ?_
    rcases List.mem_append.1 hr with hr | hr
    · exact h.reads r hr
    · rw [List.mem_singleton.1 hr]
      exact ⟨hread hok.1, rfl, h.inTime⟩
  · exact ⟨h, .refl w⟩

theorem Answering.checkAdmission {i : ℕ} (h : Answering on w) : Answering on (w.checkAdmission i) ∧ Follows w (w.checkAdmission i) := by
  unfold World.checkAdmission
  split
  · exact ⟨h, .refl w⟩
  rename_i r hi
  split
  · refine h.reading fun r' hr' => ?_
    rcases List.mem_or_eq_of_mem_set hr' with hr' | rfl
    · exact h.reads r' hr'
    · exact h.reads r (List.mem_of_getElem? hi)
  · exact h.reading fun r' hr' => h.reads r' (List.mem_of_mem_eraseIdx hr')

/-- An answer is of a window in time, and of an event that lasts. -/
theorem Answering.payload {i : ℕ} (h : Answering on w) (hb : Base site w) :
    Answering on (w.payload i) ∧ Follows w (w.payload i) := by
  unfold World.payload
  split
  · exact ⟨h, .refl w⟩
  rename_i r hi
  have hr := List.mem_of_getElem? hi
  have hleft : Answering on { w with reads := w.reads.eraseIdx i } ∧ Follows w { w with reads := w.reads.eraseIdx i } :=
    h.reading fun r' hr' => h.reads r' (List.mem_of_mem_eraseIdx hr')
  split
  swap
  · exact ⟨h, .refl w⟩
  rename_i hadmitted
  split
  · exact hleft
  rename_i e hfind
  have he := List.mem_of_find?_eq_some hfind
  have hrev : e.revision = r.stay.communicationRevision := by simpa using List.find?_some hfind
  have hfacts := ((hb.reads r hr).2 (.inl hadmitted) e he hrev).2
  obtain ⟨hon, hpk, hin⟩ := h.reads r hr
  refine ⟨⟨h.inTime, hleft.1.reads, fun a ha => ?_, h.processing, h.cancelled⟩, rfl, fun _ ha =>
    List.mem_append_left _ ha⟩
  rcases List.mem_append.1 ha with ha | ha
  · exact h.answers a ha
  · rw [List.mem_singleton.1 ha]
    refine ⟨hon, hpk, ?_, e, he, rfl, rfl⟩
    dsimp only
    rw [hfacts]
    exact hin

section Step

variable [DecidableEq F] {event : Uuid}

theorem Answering.claimCheckout {pk : Uuid} {merchantTransactionId : String} {available : Bool} (h : Answering on w)
    (hb : Base site w) : Answering on (w.claimCheckout site pk merchantTransactionId available event) ∧
      Follows w (w.claimCheckout site pk merchantTransactionId available event) := by
  unfold World.claimCheckout
  split
  · exact ⟨h, .refl w⟩
  rename_i hc
  -- a stay that has been told has been paid for, and is not checked out again
  refine h.commit hb ⟨rfl, rfl, h.inTime, fun hr => absurd (hb.paid hr) fun hp => hc (.inr (.inr (.inl hp))), rfl, rfl,
    rfl, rfl⟩

theorem Answering.verified {i : ℕ} {answer : Answer} {recorded : List String} {others : List MorningPaymentAttempt}
    (h : Answering on w) (hb : Base site w) : Answering on (w.verified site i answer recorded others event) ∧
      Follows w (w.verified site i answer recorded others event) := by
  have hdone : Answering on { w with checks := w.checks.eraseIdx i } ∧ Follows w { w with checks := w.checks.eraseIdx i } :=
    h.saves hb (h.same rfl ⟨rfl, rfl, rfl, rfl⟩)
  have hb' : Base site { w with checks := w.checks.eraseIdx i } := hb.written hb.underWay
  unfold World.verified
  split
  · exact ⟨h, .refl w⟩
  rename_i settings read hcheck
  dsimp only
  split
  · exact hdone
  rename_i a hget
  split
  · exact hdone
  split
  · exact hdone
  rename_i saved hsaved
  have hsaves : Saves { w with checks := w.checks.eraseIdx i }
      { ({ w with checks := w.checks.eraseIdx i } : World F).modifyAttempt a.pk fun _ => saved with
        stay := { w.stay with toMorningStay := morningStayAfter saved w.now w.stay.toMorningStay } } :=
    ⟨morningStayAfter_pk.1, rfl, by rw [InTime, morningStayAfter_pk.2]; exact h.inTime,
      fun hr => morningStayAfter_status (h.processing hr), rfl, rfl, rfl, rfl⟩
  exact (hdone.1.commit hb' hsaves).imp id fun hfollows => ⟨hfollows.pk, hfollows.answers⟩

theorem Answering.change {asked : ChangeAsked} (h : Answering on w) (hb : Base site w) :
    Answering on (w.change site asked event) ∧ Follows w (w.change site asked event) := by
  unfold World.change
  split
  · exact ⟨h, .refl w⟩
  split
  · exact ⟨h, .refl w⟩
  rename_i hc
  have hin : InTime asked.endsAt w.now := by
    by_cases hw : World.windowChanged w.stay asked = true
    · have hv : World.validWindow site w.stay asked = true := by
        by_contra hv
        exact hc (.inl ⟨hw, by simpa using hv⟩)
      exact (inTime_validWindow hv).later (not_lt.1 fun hlt => hc (.inr (.inl hlt)))
    · rw [← change_endsAt (by simpa using hw)]
      exact h.inTime
  exact h.commit hb ⟨rfl, rfl, hin, fun hr => ⟨h.processing hr, id⟩, rfl, rfl, rfl, rfl⟩

/-- A save that changes nothing but the status, to one that is told by no stay that is paid. -/
theorem Answering.withStatus {status : MorningStayStatus} (h : Answering on w) (hb : Base site w)
    (hs : status ≠ .processing ∧ status ≠ .paid) :
    Answering on (World.commit site event w (w.withStatus status)) ∧
      Follows w (World.commit site event w (w.withStatus status)) :=
  h.commit hb ⟨rfl, rfl, h.inTime, fun _ => ⟨hs.1, fun hp => absurd hp hs.2⟩, rfl, rfl, rfl, rfl⟩

theorem Answering.step (h : Answering on w) (hb : Base site w) (a : Action) (hread : ∀ e, a = .read e true → on) :
    Answering on (w.step site a) ∧ Follows w (w.step site a) := by
  have hsame : ∀ w' : World F, w'.stay = w.stay → (w'.events = w.events ∧ w'.reads = w.reads ∧
      w'.answers = w.answers ∧ w'.now = w.now) → Answering on w' ∧ Follows w w' :=
    fun w' hs ho => h.saves hb (h.same hs ho)
  cases a with
  | tick seconds =>
    have hle : w.now ≤ w.now + seconds := Nat.le_add_right ..
    refine ⟨⟨h.inTime.later hle, fun r hr => ?_, h.answers, h.processing, h.cancelled⟩, rfl, fun _ ha => ha⟩
    obtain ⟨hon, hpk, hin⟩ := h.reads r hr
    exact ⟨hon, hpk, hin.later hle⟩
  | listed property listing => exact hsame _ rfl ⟨rfl, rfl, rfl, rfl⟩
  | claimCheckout attempt merchant available event => exact h.claimCheckout hb
  | checkoutReply i reply =>
    unfold World.step World.checkoutReply
    dsimp only
    split
    · cases reply <;> exact hsame _ rfl ⟨rfl, rfl, rfl, rfl⟩
    · exact ⟨h, .refl w⟩
  | checkoutUnknown i =>
    unfold World.step World.checkoutUnknown
    dsimp only
    split
    · split <;> exact hsame _ rfl ⟨rfl, rfl, rfl, rfl⟩
    · exact ⟨h, .refl w⟩
  | checkoutReview i =>
    unfold World.step World.checkoutReview
    dsimp only
    split
    · exact h.saves hb ⟨rfl, rfl, h.inTime, fun _ => by simp [World.withStatus], rfl, rfl, rfl, rfl⟩
    · exact ⟨h, .refl w⟩
  | verify settings attempt =>
    unfold World.step World.verify
    dsimp only
    split
    · exact ⟨h, .refl w⟩
    split
    · exact hsame _ rfl ⟨rfl, rfl, rfl, rfl⟩
    · exact ⟨h, .refl w⟩
  | verified i answer recorded others event => exact h.verified hb
  | change asked event => exact h.change hb
  | cancel event =>
    unfold World.step World.cancel
    dsimp only
    split
    · exact ⟨h, .refl w⟩
    · exact h.withStatus hb (by decide)
  | resend available event =>
    unfold World.step World.resend
    dsimp only
    split
    · exact ⟨h, .refl w⟩
    · exact h.withStatus hb (by decide)
  | billing event =>
    unfold World.step World.billing
    dsimp only
    split
    · exact ⟨h, .refl w⟩
    · exact h.commit hb (h.same rfl ⟨rfl, rfl, rfl, rfl⟩)
  | claimEvent skipped => exact h.claimEvent
  | answered i reply => exact h.answered
  | read event authorised => exact h.read fun ht => hread event (by rw [ht])
  | checkAdmission i => exact h.checkAdmission
  | payload i => exact h.payload hb

end Step

/-! ### An answer of the revision the stay still has -/

/-- The answer tells the stay as it is, unless the stay is over or not told any more. -/
theorem Answering.current {a : EventAnswer F} (h : Answering on w) (hs : Sound site w) (ha : a ∈ w.answers)
    (hrev : a.event.revision = w.stay.communicationRevision) (ht : told w.stay = true) (he : ended w.stay w.now = false) :
    a.event.values.facts = factsOf w.stay w.stay.guestPhone := by
  obtain ⟨-, -, -, e, hmem, hr, hv⟩ := h.answers a ha
  rw [← hv]
  exact (hs.told ht he e hmem (hr.trans hrev)).2

/-- A cancellation is not the last that was told of a paid stay. -/
theorem Answering.not_cancelled {a : EventAnswer F} (h : Answering on w) (ha : a ∈ w.answers)
    (hrev : a.event.revision = w.stay.communicationRevision) (hp : w.stay.status = .paid) :
    a.event.values.facts.status ≠ .cancelled := by
  obtain ⟨-, -, -, e, hmem, hr, hv⟩ := h.answers a ha
  rw [← hv]
  exact fun hc => h.cancelled e hmem (hr.trans hrev) hc hp

end Apartments.Morning
