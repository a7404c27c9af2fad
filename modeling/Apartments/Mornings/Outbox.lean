import Apartments.HyperPay.Gateway
import Apartments.Mornings.Gateway

/-!
# The outbox tells the last truth

A save ends in `commit`, so what an event tells is settled there: `Base` is all that `commit` needs of the stay it
finds, and `Told` is what it establishes. `Paying` keeps a verified payment verified, since no step touches an attempt
that has succeeded.
-/

namespace Apartments.Morning

open Payments HyperPay Verification Machine

variable {F : Type} {site : Site F} {w w' : World F} {s s' : Stay F} {events events' : List (Event F)}

/-- The event of the stay's revision tells the stay as it is. -/
def Agrees (events : List (Event F)) (s : Stay F) : Prop :=
  ∀ e ∈ events, e.revision = s.communicationRevision → e.values.stay = s.pk ∧ e.values.facts = factsOf s s.guestPhone

/-- What an answer of `read_event` says of the stay it was read for. -/
def EventAnswer.Truthful (a : EventAnswer F) : Prop :=
  a.event.revision = a.stay.communicationRevision ∧ a.event.values.stay = a.stay.pk ∧
    a.event.values.facts = factsOf a.stay a.stay.guestPhone

structure Base (site : Site F) (w : World F) : Prop where
  production : w.stay.environment = "production"
  phone : site.normalize w.stay.guestPhone = some w.stay.guestPhone
  keys : (w.events.map (·.pk)).Nodup
  revisions : w.events.map (·.revision) = List.range' 1 w.stay.communicationRevision
  pending : ∀ e ∈ w.events, e.state = .pending → e.revision = w.stay.communicationRevision
  fingerprint : ∀ e ∈ w.events, e.revision = w.stay.communicationRevision →
    w.stay.communicationFingerprint = some (site.digest e.values)
  verified : 1 ≤ w.stay.communicationRevision → verifiedPayment w.stay w.attempts = true
  reads : ∀ r ∈ w.reads, r.stay.communicationRevision ≤ w.stay.communicationRevision ∧
    (r.admitted = true ∨ told r.stay = true ∧ ended r.stay w.now = false → Agrees w.events r.stay)
  answers : ∀ a ∈ w.answers, a.Truthful

/-- Nothing is left to tell of a stay that is paid and not over, or cancelled. -/
def Told (w : World F) : Prop := told w.stay = true → ended w.stay w.now = false → Agrees w.events w.stay

/-- An attempt whose checkout is under way has no reference yet, and one that is being verified has. -/
structure Paying (w : World F) : Prop where
  attempts : (w.attempts.map (·.pk)).Nodup
  checkouts : (w.checkouts.map Prod.fst).Nodup
  created : ∀ c ∈ w.checkouts, ∃ a ∈ w.attempts, a.pk = c.1 ∧ a.providerCheckoutId = none ∧ a.status ≠ .succeeded
  checked : ∀ c ∈ w.checks, ∃ a ∈ w.attempts, a.pk = c.2.pk ∧ a.providerCheckoutId ≠ none

structure Sound (site : Site F) (w : World F) : Prop where
  base : Base site w
  told : Told w
  paying : Paying w

/-! ### Capturing an event -/

section Capture

variable {listing : Listing} {attempts attempts' : List MorningPaymentAttempt} {now : Time} {pk : Uuid}

@[simp] theorem supersede_pk (e : Event F) : (supersede e).pk = e.pk := by
  unfold supersede
  split <;> rfl

@[simp] theorem supersede_revision (e : Event F) : (supersede e).revision = e.revision := by
  unfold supersede
  split <;> rfl

@[simp] theorem supersede_values (e : Event F) : (supersede e).values = e.values := by
  unfold supersede
  split <;> rfl

theorem supersede_state (e : Event F) : (supersede e).state ≠ .pending := by
  unfold supersede
  split
  · simp
  · assumption

theorem supersede_of_ne {e : Event F} (h : e.state ≠ .pending) : supersede e = e := if_neg h

/-- What `capture_event` does: nothing, where the last event tells all there is to tell, or a new event. -/
theorem capture_cases [DecidableEq F] (site : Site F) (listing : Listing) (attempts : List MorningPaymentAttempt)
    (now : Time) (pk : Uuid) (s : Stay F) (events : List (Event F)) :
    (capture site listing attempts now pk s events = (s, events) ∧
      ∀ phone, capturable site attempts now s = some phone →
        s.communicationFingerprint = some (site.digest ⟨s.pk, factsOf s phone, listing⟩)) ∨
    ∃ phone, capturable site attempts now s = some phone ∧
      capture site listing attempts now pk s events =
        ({ s with
            communicationRevision := s.communicationRevision + 1
            communicationFingerprint := some (site.digest ⟨s.pk, factsOf s phone, listing⟩) },
          events.map supersede ++
            [newEvent pk s ⟨s.pk, factsOf s phone, listing⟩ (site.digest ⟨s.pk, factsOf s phone, listing⟩) now]) := by
  unfold capture
  cases hc : capturable site attempts now s with
  | none => exact .inl ⟨rfl, fun phone h => absurd h (by simp)⟩
  | some phone =>
    by_cases hf : s.communicationFingerprint = some (site.digest ⟨s.pk, factsOf s phone, listing⟩)
    · exact .inl ⟨by simp [hf], fun p hp => by cases hp; exact hf⟩
    · exact .inr ⟨phone, rfl, by simp [hf]⟩

theorem capturable_phone {phone : String} (h : capturable site attempts now s = some phone) :
    site.normalize s.guestPhone = some phone ∧ verifiedPayment s attempts = true := by
  unfold capturable at h
  split_ifs at h with h1 h2 h3
  exact ⟨h, by simpa using fun hv => h3 (.inl hv)⟩

/-- A stay that is told and not over is captured, unless its payment is not verified or nothing was told before. -/
theorem capturable_of_told {phone : String} (hp : s.environment = "production") (ht : told s = true)
    (he : ended s now = false) (hv : verifiedPayment s attempts = true) (hr : 1 ≤ s.communicationRevision)
    (hn : site.normalize s.guestPhone = some phone) : capturable site attempts now s = some phone := by
  have hr' : s.communicationRevision ≠ 0 := by omega
  simp [capturable, hp, ht, he, hv, hr', hn]

theorem verifiedPayment_mono (h : verifiedPayment s attempts = true) (hamount : s'.amountSar = s.amountSar)
    (hpaid : s.paidAt.isSome = true → s'.paidAt.isSome = true)
    (hkept : ∀ a ∈ attempts, a.status = .succeeded → a ∈ attempts') : verifiedPayment s' attempts' = true := by
  rw [verifiedPayment, Bool.and_eq_true, List.any_eq_true] at h ⊢
  obtain ⟨hp, a, ha, hok⟩ := h
  refine ⟨hpaid hp, a, hkept a ha ?_, by rw [hamount]; exact hok⟩
  simp only [Bool.and_eq_true, beq_iff_eq] at hok
  exact hok.1.1.1.1.1

end Capture

/-! ### Saving the stay -/

/-- The events that tell the stay stay in place, and so do those it has been told by. -/
theorem Agrees.capture {e : Event F} (h : Agrees events s) (hrev : s.communicationRevision < e.revision) :
    Agrees (events.map supersede ++ [e]) s := by
  intro e' he' hr
  rcases List.mem_append.1 he' with he' | he'
  · obtain ⟨e₀, he₀, rfl⟩ := List.mem_map.1 he'
    rw [supersede_values]
    exact h e₀ he₀ (by simpa using hr)
  · obtain rfl := List.mem_singleton.1 he'
    omega

theorem Base.revision_mem (h : Base site w) {e : Event F} (he : e ∈ w.events) :
    1 ≤ e.revision ∧ e.revision ≤ w.stay.communicationRevision := by
  have hmem : e.revision ∈ w.events.map (·.revision) := List.mem_map_of_mem he
  rw [h.revisions, List.mem_range'_1] at hmem
  omega

theorem Base.unique (h : Base site w) {e e' : Event F} (he : e ∈ w.events) (he' : e' ∈ w.events)
    (hr : e.revision = e'.revision) : e = e' :=
  Table.eq_of_mem_of_key (h.revisions ▸ List.nodup_range') he he' hr

/-- The world in which the values have been captured as a new event. -/
def World.push (site : Site F) (w : World F) (pk : Uuid) (values : Values) : World F :=
  { w with
    stay := { w.stay with
      communicationRevision := w.stay.communicationRevision + 1
      communicationFingerprint := some (site.digest values) }
    events := w.events.map supersede ++ [newEvent pk w.stay values (site.digest values) w.now] }

/-- The new event of a save follows the others. -/
theorem Base.push {pk : Uuid} {phone : String} (h : Base site w) (hpk : pk ∉ w.events.map (·.pk))
    (hc : capturable site w.attempts w.now w.stay = some phone) (listing : Listing) :
    Base site (w.push site pk ⟨w.stay.pk, factsOf w.stay phone, listing⟩) ∧
      Told (w.push site pk ⟨w.stay.pk, factsOf w.stay phone, listing⟩) := by
  obtain ⟨hn, hv⟩ := capturable_phone hc
  obtain rfl : w.stay.guestPhone = phone := Option.some.inj (h.phone.symm.trans hn)
  refine ⟨⟨h.production, h.phone, ?_, ?_, ?_, ?_, fun _ => ?_, ?_, h.answers⟩, ?_⟩
  · have hmap : (w.events.map supersede).map (·.pk) = w.events.map (·.pk) := by simp [Function.comp_def]
    simp only [World.push, List.map_append, hmap]
    exact List.nodup_append'.2 ⟨h.keys, by simp, by simpa [newEvent] using hpk⟩
  · have hmap : (w.events.map supersede).map (·.revision) = w.events.map (·.revision) := by simp [Function.comp_def]
    have hlast : 1 + w.stay.communicationRevision = w.stay.communicationRevision + 1 := Nat.add_comm ..
    simp only [World.push, List.map_append, hmap, h.revisions, List.range'_1_concat, hlast]
    rfl
  · intro e he hp
    rcases List.mem_append.1 he with he | he
    · obtain ⟨e₀, -, rfl⟩ := List.mem_map.1 he
      exact absurd hp (supersede_state e₀)
    · rw [List.mem_singleton.1 he]
      rfl
  · intro e he hr
    rcases List.mem_append.1 he with he | he
    · obtain ⟨e₀, he₀, rfl⟩ := List.mem_map.1 he
      have hle := (h.revision_mem he₀).2
      have hr : e₀.revision = w.stay.communicationRevision + 1 := (supersede_revision e₀).symm.trans hr
      omega
    · rw [List.mem_singleton.1 he]
      rfl
  · exact verifiedPayment_mono hv rfl id fun a ha _ => ha
  · intro r hr
    obtain ⟨hle, hag⟩ := h.reads r hr
    exact ⟨Nat.le_succ_of_le hle, fun hok => (hag hok).capture (Nat.lt_succ_of_le hle)⟩
  · intro _ _ e he hr
    rcases List.mem_append.1 he with he | he
    · obtain ⟨e₀, he₀, rfl⟩ := List.mem_map.1 he
      have hle := (h.revision_mem he₀).2
      have hr : e₀.revision = w.stay.communicationRevision + 1 := (supersede_revision e₀).symm.trans hr
      omega
    · rw [List.mem_singleton.1 he]
      exact ⟨rfl, rfl⟩

/-- What a transaction keeps of the stay and its outbox before it captures. -/
structure Written (site : Site F) (w w' : World F) : Prop where
  environment : w'.stay.environment = w.stay.environment
  revision : w'.stay.communicationRevision = w.stay.communicationRevision
  fingerprint : w'.stay.communicationFingerprint = w.stay.communicationFingerprint
  phone : site.normalize w'.stay.guestPhone = some w'.stay.guestPhone
  amount : w'.stay.amountSar = w.stay.amountSar
  paid : w.stay.paidAt.isSome = true → w'.stay.paidAt.isSome = true
  succeeded : ∀ a ∈ w.attempts, a.status = .succeeded → a ∈ w'.attempts
  outbox : w'.events = w.events ∧ w'.reads = w.reads ∧ w'.answers = w.answers ∧ w'.now = w.now

theorem Base.written (h : Base site w) (hw : Written site w w') : Base site w' := by
  obtain ⟨hev, hre, han, hnow⟩ := hw.outbox
  refine ⟨hw.environment.trans h.production, hw.phone, hev ▸ h.keys, ?_, ?_, ?_, ?_, ?_, han ▸ h.answers⟩
  · rw [hev, hw.revision]
    exact h.revisions
  · rw [hev, hw.revision]
    exact h.pending
  · rw [hev, hw.revision, hw.fingerprint]
    exact h.fingerprint
  · rw [hw.revision]
    exact fun hr => verifiedPayment_mono (h.verified hr) hw.amount hw.paid hw.succeeded
  · rw [hre, hw.revision, hev, hnow]
    exact h.reads

section Commit

variable [DecidableEq F]

/-- A save settles what is told of the stay it writes. -/
theorem Sound.commit {event : Uuid} (h : Sound site w) (hb : Base site w') (hp : Paying w')
    (hev : w'.events = w.events) : Sound site (World.commit site event w w') := by
  unfold World.commit
  split
  · exact h
  rename_i hpk
  rw [← hev] at hpk
  have hpay : ∀ stay events, Paying { w' with stay := stay, events := events } :=
    fun _ _ => ⟨hp.attempts, hp.checkouts, hp.created, hp.checked⟩
  rcases capture_cases site (w'.listings w'.stay.property) w'.attempts w'.now event w'.stay w'.events with ⟨heq, hsame⟩ | ⟨phone, hc, heq⟩
  · simp only [heq]
    refine ⟨hb, fun ht he e hmem hr => ?_, hp⟩
    have hr1 : 1 ≤ w'.stay.communicationRevision := hr ▸ (hb.revision_mem hmem).1
    have hf := hsame _ (capturable_of_told hb.production ht he (hb.verified hr1) hr1 hb.phone)
    rw [hb.fingerprint e hmem hr] at hf
    rw [site.digest_injective (Option.some.inj hf)]
    exact ⟨rfl, rfl⟩
  · simp only [heq]
    obtain ⟨hb', ht⟩ := hb.push hpk hc (w'.listings w'.stay.property)
    exact ⟨hb', ht, hpay _ _⟩

theorem Sound.written {event : Uuid} (h : Sound site w) (hw : Written site w w') (hp : Paying w') :
    Sound site (World.commit site event w w') :=
  h.commit (h.base.written hw) hp hw.outbox.1

end Commit

/-! ### Attempts -/

theorem Paying.unique (h : Paying w) {a b : MorningPaymentAttempt} (ha : a ∈ w.attempts) (hb : b ∈ w.attempts)
    (hk : a.pk = b.pk) : a = b := Table.eq_of_mem_of_key h.attempts ha hb hk

/-- An attempt is rewritten: a verification under way keeps its reference, a checkout under way its attempt. -/
theorem Paying.modify {pk : Uuid} {f : MorningPaymentAttempt → MorningPaymentAttempt}
    {checkouts : List (Uuid × CheckoutStage)} {checks : List (Settings × MorningPaymentAttempt)} (h : Paying w)
    (hkey : ∀ a, a.pk = pk → (f a).pk = pk)
    (hid : ∀ a ∈ w.attempts, a.providerCheckoutId ≠ none → (f a).providerCheckoutId ≠ none)
    (hnd : (checkouts.map Prod.fst).Nodup) (hsub : ∀ c ∈ checkouts, c.1 ∈ w.checkouts.map Prod.fst)
    (hopen : pk ∈ checkouts.map Prod.fst → ∀ a ∈ w.attempts, a.providerCheckoutId = none → a.status ≠ .succeeded →
      (f a).providerCheckoutId = none ∧ (f a).status ≠ .succeeded)
    (hchecks : ∀ c ∈ checks, c ∈ w.checks) :
    Paying { w.modifyAttempt pk f with checkouts := checkouts, checks := checks } := by
  refine ⟨?_, hnd, fun c hc => ?_, fun c hc => ?_⟩
  · exact (Table.map_key_modify hkey).symm ▸ h.attempts
  · obtain ⟨c₀, hc₀, hc₀c⟩ := List.mem_map.1 (hsub c hc)
    obtain ⟨a, ha, hak, hai, has⟩ := h.created c₀ hc₀
    refine ⟨_, Table.mem_modify.2 ⟨a, ha, rfl⟩, ?_⟩
    by_cases hp : a.pk = pk
    · have hcpk : pk ∈ checkouts.map Prod.fst := by
        rw [← hp, hak, hc₀c]
        exact List.mem_map_of_mem hc
      rw [if_pos hp]
      exact ⟨(hkey a hp).trans (hp.symm.trans (hak.trans hc₀c)), hopen hcpk a ha hai has⟩
    · rw [if_neg hp]
      exact ⟨hak.trans hc₀c, hai, has⟩
  · obtain ⟨a, ha, hak, hai⟩ := h.checked c (hchecks c hc)
    refine ⟨_, Table.mem_modify.2 ⟨a, ha, rfl⟩, ?_⟩
    by_cases hp : a.pk = pk
    · rw [if_pos hp]
      exact ⟨(hkey a hp).trans (hp.symm.trans hak), hid a ha hai⟩
    · rw [if_neg hp]
      exact ⟨hak, hai⟩

/-- A checkout begins with an attempt of its own. -/
theorem Paying.claim {pk : Uuid} {merchantTransactionId : String} (h : Paying w) (hfresh : pk ∉ w.attempts.map (·.pk)) :
    Paying { w.withStatus .processing with
      attempts := w.attempts ++ [w.newAttempt pk merchantTransactionId]
      checkouts := w.checkouts ++ [(pk, .waiting)] } := by
  refine ⟨?_, ?_, ?_, ?_⟩
  · rw [List.map_append]
    exact List.nodup_append'.2 ⟨h.attempts, by simp, by simpa [World.newAttempt] using hfresh⟩
  · rw [List.map_append]
    refine List.nodup_append'.2 ⟨h.checkouts, by simp, ?_⟩
    simp only [List.map_cons, List.map_nil, List.disjoint_singleton]
    intro hm
    obtain ⟨c, hmem, rfl⟩ := List.mem_map.1 hm
    obtain ⟨a, ha, hk, -⟩ := h.created c hmem
    exact hfresh (hk ▸ List.mem_map_of_mem ha)
  · intro c hc
    rcases List.mem_append.1 hc with hc | hc
    · obtain ⟨a, ha, ha'⟩ := h.created c hc
      exact ⟨a, List.mem_append_left _ ha, ha'⟩
    · obtain rfl := List.mem_singleton.1 hc
      exact ⟨_, List.mem_append_right _ (List.mem_singleton_self _), rfl, rfl, by simp [World.newAttempt]⟩
  · intro c hc
    obtain ⟨a, ha, ha'⟩ := h.checked c hc
    exact ⟨a, List.mem_append_left _ ha, ha'⟩

theorem succeeded_modify {pk : Uuid} {f : MorningPaymentAttempt → MorningPaymentAttempt}
    (h : ∀ a ∈ w.attempts, a.pk = pk → a.status ≠ .succeeded) :
    ∀ a ∈ w.attempts, a.status = .succeeded → a ∈ (w.modifyAttempt pk f).attempts :=
  fun a ha hs => Table.mem_modify_of_ne ha fun hk => h a ha hk hs

/-- The attempt of a checkout under way has not succeeded. -/
theorem Paying.not_succeeded (h : Paying w) {pk : Uuid} (hpk : pk ∈ w.checkouts.map Prod.fst) :
    ∀ a ∈ w.attempts, a.pk = pk → a.status ≠ .succeeded := by
  obtain ⟨c, hc, rfl⟩ := List.mem_map.1 hpk
  obtain ⟨a, ha, hak, -, has⟩ := h.created c hc
  intro b hb hbk
  rw [h.unique hb ha (hbk.trans hak.symm)]
  exact has

/-- What is under way does not concern the outbox. -/
theorem Base.underWay (h : Base site w) {checkouts : List (Uuid × CheckoutStage)}
    {checks : List (Settings × MorningPaymentAttempt)} :
    Written site w { w with checkouts := checkouts, checks := checks } :=
  ⟨rfl, rfl, rfl, h.phone, rfl, id, fun _ ha _ => ha, rfl, rfl, rfl, rfl⟩

/-- What does not touch the stay and its outbox keeps what has been told. -/
theorem Sound.same (h : Sound site w) (hw : Written site w w') (hs : w'.stay = w.stay) (hp : Paying w') :
    Sound site w' := by
  obtain ⟨hev, -, -, hnow⟩ := hw.outbox
  refine ⟨h.base.written hw, ?_, hp⟩
  rw [Told, hs, hev, hnow]
  exact h.told

/-! ### Checkouts and verifications -/

section Payment

variable {i : ℕ} {pk : Uuid} {stage : CheckoutStage}

theorem Paying.mem_checkouts (h : w.checkouts[i]? = some (pk, stage)) : pk ∈ w.checkouts.map Prod.fst :=
  List.mem_map.2 ⟨_, List.mem_of_getElem? h, rfl⟩

theorem Paying.erase (h : Paying w) : ((w.checkouts.eraseIdx i).map Prod.fst).Nodup ∧
    ∀ c ∈ w.checkouts.eraseIdx i, c.1 ∈ w.checkouts.map Prod.fst :=
  ⟨Table.nodup_eraseIdx h.checkouts, fun _ hc => List.mem_map_of_mem (List.mem_of_mem_eraseIdx hc)⟩

theorem Paying.set {stage' : CheckoutStage} (h : w.checkouts[i]? = some (pk, stage)) :
    (w.checkouts.set i (pk, stage')).map Prod.fst = w.checkouts.map Prod.fst :=
  Table.map_key_set h rfl

/-- The checkout under way rewrites its attempt, which has not succeeded. -/
theorem Sound.checkout {f : MorningPaymentAttempt → MorningPaymentAttempt} {checkouts : List (Uuid × CheckoutStage)}
    (h : Sound site w) (hi : w.checkouts[i]? = some (pk, stage)) (hkey : ∀ a, (f a).pk = a.pk)
    (hid : ∀ a, a.providerCheckoutId ≠ none → (f a).providerCheckoutId ≠ none)
    (hnd : (checkouts.map Prod.fst).Nodup) (hsub : ∀ c ∈ checkouts, c.1 ∈ w.checkouts.map Prod.fst)
    (hopen : pk ∈ checkouts.map Prod.fst → ∀ a, a.providerCheckoutId = none → a.status ≠ .succeeded →
      (f a).providerCheckoutId = none ∧ (f a).status ≠ .succeeded) :
    Sound site { w.modifyAttempt pk f with checkouts := checkouts } := by
  refine h.same ⟨rfl, rfl, rfl, h.base.phone, rfl, id, ?_, rfl, rfl, rfl, rfl⟩ rfl ?_
  · exact succeeded_modify (h.paying.not_succeeded (Paying.mem_checkouts hi))
  · exact h.paying.modify (fun a ha => (hkey a).trans ha) (fun a _ => hid a) hnd hsub
      (fun hp a _ => hopen hp a) fun _ hc => hc

theorem Sound.checkoutReply {reply : CheckoutReply} (h : Sound site w) : Sound site (w.checkoutReply i reply) := by
  unfold World.checkoutReply
  split
  swap
  · exact h
  rename_i pk hi
  cases reply with
  | valid id =>
    refine h.checkout hi (fun _ => rfl) (fun _ _ => by simp) h.paying.erase.1 h.paying.erase.2 fun hp => ?_
    obtain ⟨c, hc, hk⟩ := List.mem_map.1 hp
    exact absurd hk (Table.mem_eraseIdx_cases h.paying.checkouts hi hc).2
  | invalid =>
    refine h.checkout hi (fun _ => rfl) (fun _ ha => ha) ((Paying.set hi).symm ▸ h.paying.checkouts) (fun c hc => ?_)
      fun _ a ha _ => ⟨ha, by simp⟩
    exact Paying.set hi ▸ List.mem_map_of_mem hc
  | raised =>
    refine h.same h.base.underWay rfl ⟨h.paying.attempts, (Paying.set hi).symm ▸ h.paying.checkouts, ?_,
      h.paying.checked⟩
    intro c hc
    obtain ⟨c₀, hc₀, hk⟩ := List.mem_map.1 (Paying.set hi ▸ List.mem_map_of_mem (f := Prod.fst) hc)
    exact hk ▸ h.paying.created c₀ hc₀

theorem Sound.checkoutUnknown (h : Sound site w) : Sound site (w.checkoutUnknown i) := by
  unfold World.checkoutUnknown
  split
  swap
  · exact h
  rename_i pk hi
  split
  · refine h.same h.base.underWay rfl ⟨h.paying.attempts, h.paying.erase.1, fun c hc => ?_, h.paying.checked⟩
    obtain ⟨c₀, hc₀, hk⟩ := List.mem_map.1 (h.paying.erase.2 c hc)
    exact hk ▸ h.paying.created c₀ hc₀
  refine h.checkout hi (fun _ => rfl) (fun _ ha => ha) ((Paying.set hi).symm ▸ h.paying.checkouts) (fun c hc => ?_)
    fun _ a ha _ => ⟨ha, by simp⟩
  exact Paying.set hi ▸ List.mem_map_of_mem hc

/-- A stay that waits for a review is not told, whatever the payment was. -/
theorem Sound.checkoutReview (h : Sound site w) : Sound site (w.checkoutReview i) := by
  unfold World.checkoutReview
  split
  swap
  · exact h
  refine ⟨h.base.written ⟨rfl, rfl, rfl, h.base.phone, rfl, id, fun _ ha _ => ha, rfl, rfl, rfl, rfl⟩, ?_, ?_⟩
  · intro ht
    simp [World.withStatus, Apartments.Morning.told] at ht
  · exact ⟨h.paying.attempts, h.paying.erase.1, fun c hc => h.paying.created c (List.mem_of_mem_eraseIdx hc),
      h.paying.checked⟩

theorem Sound.verify {settings : Settings} (h : Sound site w) : Sound site (w.verify settings pk) := by
  unfold World.verify
  split
  · exact h
  rename_i a hget
  split
  swap
  · exact h
  rename_i hask
  refine h.same h.base.underWay rfl ⟨h.paying.attempts, h.paying.checkouts, h.paying.created, fun c hc => ?_⟩
  rcases List.mem_append.1 hc with hc | hc
  · exact h.paying.checked c hc
  · refine ⟨a, Table.mem_of_get hget, by rw [List.mem_singleton.1 hc], fun hnone => ?_⟩
    simp only [morningOpening, hnone, true_or, if_true] at hask
    split_ifs at hask

/-- The attempt of a verification under way is rewritten by it. -/
theorem Paying.verified {settings : Settings} {read a saved : MorningPaymentAttempt} (h : Paying w)
    (hcheck : w.checks[i]? = some (settings, read)) (hget : Table.get MorningPaymentAttempt.pk w.attempts read.pk = some a)
    (hpk : saved.pk = a.pk) (hid : saved.providerCheckoutId = a.providerCheckoutId) :
    Paying { w.modifyAttempt a.pk (fun _ => saved) with checkouts := w.checkouts, checks := w.checks.eraseIdx i } := by
  have ha : a ∈ w.attempts := Table.mem_of_get hget
  obtain ⟨b, hb, hbk, hbid⟩ := h.checked _ (List.mem_of_getElem? hcheck)
  obtain rfl : a = b := h.unique ha hb ((Table.key_of_get hget).trans hbk.symm)
  refine h.modify (fun _ _ => hpk) (fun _ _ _ => hid ▸ hbid) h.checkouts (fun c hc => List.mem_map_of_mem hc)
    (fun hp => ?_) fun c hc => List.mem_of_mem_eraseIdx hc
  obtain ⟨c, hc, hk⟩ := List.mem_map.1 hp
  obtain ⟨d, hd, hdk, hdid, -⟩ := h.created c hc
  rw [h.unique hd ha (hdk.trans hk)] at hdid
  exact absurd hdid hbid

theorem morningWritten_keys (settings : Settings) (read a : MorningPaymentAttempt) (answer : Answer)
    (recorded : String → Bool) (now : Time) :
    (morningWritten settings read answer recorded now a).pk = a.pk ∧
      (morningWritten settings read answer recorded now a).providerCheckoutId = a.providerCheckoutId ∧
      (morningWritten settings read answer recorded now a).verifiedAt = some now := by
  unfold morningWritten
  dsimp only
  split
  · split
    · exact ⟨rfl, rfl, rfl⟩
    · split <;> exact ⟨rfl, rfl, rfl⟩
  · exact ⟨rfl, rfl, rfl⟩

theorem morningSaved_keys {mornings : List MorningPaymentAttempt} {a saved : MorningPaymentAttempt}
    (h : morningSaved mornings a = some saved) :
    saved.pk = a.pk ∧ saved.providerCheckoutId = a.providerCheckoutId ∧ saved.verifiedAt = a.verifiedAt := by
  unfold morningSaved at h
  split at h
  · dsimp only at h
    split at h
    · cases h
    · cases h
      exact ⟨rfl, rfl, rfl⟩
  · cases h
    exact ⟨rfl, rfl, rfl⟩

theorem morningStayAfter_paid {a : MorningPaymentAttempt} {now : Time} {s : MorningStay} (ha : a.verifiedAt.isSome = true)
    (h : s.paidAt.isSome = true) : (morningStayAfter a now s).paidAt.isSome = true := by
  unfold morningStayAfter
  split <;> assumption

theorem morningStayAfter_environment {a : MorningPaymentAttempt} {now : Time} {s : MorningStay} :
    (morningStayAfter a now s).environment = s.environment := by
  unfold morningStayAfter
  split <;> rfl

theorem Sound.verified [DecidableEq F] {answer : Answer} {recorded : List String} {others : List MorningPaymentAttempt} {event : Uuid}
    (h : Sound site w) : Sound site (w.verified site i answer recorded others event) := by
  have hdone : Sound site { w with checks := w.checks.eraseIdx i } :=
    h.same h.base.underWay rfl ⟨h.paying.attempts, h.paying.checkouts, h.paying.created,
      fun c hc => h.paying.checked c (List.mem_of_mem_eraseIdx hc)⟩
  unfold World.verified
  split
  · exact h
  rename_i settings read hcheck
  dsimp only
  split
  · exact hdone
  rename_i a hget
  split
  · exact hdone
  rename_i hopen
  split
  · exact hdone
  rename_i saved hsaved
  obtain ⟨hpk, hid, hat⟩ := morningSaved_keys hsaved
  obtain ⟨hpk', hid', hat'⟩ := morningWritten_keys settings read a answer (fun id => recorded.contains id) w.now
  have ha : a ∈ w.attempts := Table.mem_of_get hget
  have hsome : saved.verifiedAt.isSome = true := by rw [hat, hat']; rfl
  have hpaying := h.paying.verified hcheck hget (hpk.trans hpk') (hid.trans hid')
  refine hdone.written ⟨morningStayAfter_environment, rfl, rfl, h.base.phone, rfl, morningStayAfter_paid hsome, ?_, rfl,
    rfl, rfl, rfl⟩ ⟨hpaying.attempts, hpaying.checkouts, hpaying.created, hpaying.checked⟩
  refine succeeded_modify (w := { w with checks := w.checks.eraseIdx i }) fun c hc hk hs => hopen (.inr ?_)
  rw [h.paying.unique ha hc hk.symm]
  exact hs

end Payment

/-! ### The other saves -/

section Saves

variable [DecidableEq F] {event : Uuid}

/-- A save that leaves the payment alone. -/
theorem Sound.save (h : Sound site w) (hpayment : w'.attempts = w.attempts ∧ w'.checkouts = w.checkouts ∧
    w'.checks = w.checks) (houtbox : w'.events = w.events ∧ w'.reads = w.reads ∧ w'.answers = w.answers ∧
    w'.now = w.now) (hphone : site.normalize w'.stay.guestPhone = some w'.stay.guestPhone)
    (hstay : w'.stay.environment = w.stay.environment ∧
      w'.stay.communicationRevision = w.stay.communicationRevision ∧
      w'.stay.communicationFingerprint = w.stay.communicationFingerprint ∧
      w'.stay.amountSar = w.stay.amountSar ∧ w'.stay.paidAt = w.stay.paidAt) :
    Sound site (World.commit site event w w') := by
  obtain ⟨ha, hco, hch⟩ := hpayment
  obtain ⟨henv, hrev, hfp, hamount, hpaid⟩ := hstay
  refine h.written ⟨henv, hrev, hfp, hphone, hamount, fun hp => by rw [hpaid]; exact hp, ?_, houtbox⟩ ?_
  · exact fun a ha' _ => by rw [ha]; exact ha'
  · exact ⟨ha ▸ h.paying.attempts, hco ▸ h.paying.checkouts, by rw [hco, ha]; exact h.paying.created,
      by rw [hch, ha]; exact h.paying.checked⟩

theorem Sound.claimCheckout {pk : Uuid} {merchantTransactionId : String} {available : Bool} (h : Sound site w) :
    Sound site (w.claimCheckout site pk merchantTransactionId available event) := by
  unfold World.claimCheckout
  split
  · exact h
  rename_i hc
  have hfresh : pk ∉ w.attempts.map (·.pk) := fun hm => hc (.inr (.inr (.inr (.inr (.inl hm)))))
  refine h.written ⟨rfl, rfl, rfl, h.base.phone, rfl, id, fun a ha _ => ?_, rfl, rfl, rfl, rfl⟩ (h.paying.claim hfresh)
  exact List.mem_append_left _ ha

theorem Sound.change {asked : ChangeAsked} (h : Sound site w) : Sound site (w.change site asked event) := by
  unfold World.change
  split
  · exact h
  rename_i phone hphone
  split
  · exact h
  · exact h.save ⟨rfl, rfl, rfl⟩ ⟨rfl, rfl, rfl, rfl⟩ (site.normalize_idem _ _ hphone) ⟨rfl, rfl, rfl, rfl, rfl⟩

theorem Sound.withStatus {status : MorningStayStatus} (h : Sound site w) :
    Sound site (World.commit site event w (w.withStatus status)) :=
  h.save ⟨rfl, rfl, rfl⟩ ⟨rfl, rfl, rfl, rfl⟩ h.base.phone ⟨rfl, rfl, rfl, rfl, rfl⟩

theorem Sound.cancel (h : Sound site w) : Sound site (w.cancel site event) := by
  unfold World.cancel
  split
  · exact h
  · exact h.withStatus

theorem Sound.resend {available : Bool} (h : Sound site w) : Sound site (w.resend site available event) := by
  unfold World.resend
  split
  · exact h
  · exact h.withStatus

theorem Sound.billing (h : Sound site w) : Sound site (w.billing site event) := by
  unfold World.billing
  split
  · exact h
  · exact h.save ⟨rfl, rfl, rfl⟩ ⟨rfl, rfl, rfl, rfl⟩ h.base.phone ⟨rfl, rfl, rfl, rfl, rfl⟩

end Saves

/-! ### Deliveries and reads -/

/-- A worker writes what it did to an event; what the event tells stays, and a settled event stays settled. -/
theorem Sound.modifyEvent {pk : Uuid} {f : Event F → Event F} {workers : List Uuid} (h : Sound site w)
    (hf : ∀ e, (f e).pk = e.pk ∧ (f e).revision = e.revision ∧ (f e).values = e.values)
    (hs : ∀ e ∈ w.events, e.pk = pk → e.state ≠ .pending → (f e).state ≠ .pending) :
    Sound site { w.modifyEvent pk f with workers := workers } := by
  have hmem : ∀ e ∈ (w.modifyEvent pk f).events, ∃ e₀ ∈ w.events, e.revision = e₀.revision ∧ e.values = e₀.values ∧
      (e.state = .pending → e₀.state = .pending) := by
    intro e he
    obtain ⟨e₀, he₀, rfl⟩ := Table.mem_modify.1 he
    refine ⟨e₀, he₀, ?_⟩
    split
    · rename_i hk
      exact ⟨(hf e₀).2.1, (hf e₀).2.2, not_imp_not.1 (hs e₀ he₀ hk)⟩
    · exact ⟨rfl, rfl, id⟩
  have hagrees : ∀ s, Agrees w.events s → Agrees (w.modifyEvent pk f).events s := by
    intro s hs e he hr
    obtain ⟨e₀, he₀, hr₀, hv₀, -⟩ := hmem e he
    rw [hv₀]
    exact hs e₀ he₀ (hr₀ ▸ hr)
  refine ⟨⟨h.base.production, h.base.phone, ?_, ?_, ?_, ?_, h.base.verified, ?_, h.base.answers⟩,
    fun ht he => hagrees _ (h.told ht he), ⟨h.paying.attempts, h.paying.checkouts, h.paying.created, h.paying.checked⟩⟩
  · exact (Table.map_key_modify fun e he => (hf e).1.trans he).symm ▸ h.base.keys
  · have hmap : (w.modifyEvent pk f).events.map (·.revision) = w.events.map (·.revision) := by
      simp only [World.modifyEvent, Table.modify, List.map_map]
      refine List.map_congr_left fun e _ => ?_
      simp only [Function.comp_apply]
      split
      · exact (hf e).2.1
      · rfl
    exact hmap.trans h.base.revisions
  · intro e he hp
    obtain ⟨e₀, he₀, hr₀, -, hs₀⟩ := hmem e he
    exact hr₀.trans (h.base.pending e₀ he₀ (hs₀ hp))
  · intro e he hr
    obtain ⟨e₀, he₀, hr₀, hv₀, -⟩ := hmem e he
    rw [hv₀]
    exact h.base.fingerprint e₀ he₀ (hr₀ ▸ hr)
  · exact fun r hr => ⟨(h.base.reads r hr).1, fun hok => hagrees _ ((h.base.reads r hr).2 hok)⟩

theorem claimable_pending {now : Time} {skipped : List Uuid} {e : Event F} (h : World.claimable now skipped e = true) :
    e.state = .pending := by
  simp only [World.claimable, Bool.and_eq_true, beq_iff_eq] at h
  exact h.1.1.1

theorem Sound.claimEvent {skipped : List Uuid} (h : Sound site w) : Sound site (w.claimEvent skipped) := by
  unfold World.claimEvent
  split
  · exact h
  rename_i e hfind
  have he := List.mem_of_find?_eq_some hfind
  have hpending : ∀ e' ∈ w.events, e'.pk = e.pk → e'.state = .pending := fun e' he' hk => by
    rw [Table.eq_of_mem_of_key h.base.keys he' he hk]
    exact claimable_pending (List.find?_some hfind)
  split
  · exact h.modifyEvent (fun _ => ⟨rfl, rfl, rfl⟩) fun e' he' hk hne => absurd (hpending e' he' hk) hne
  · exact h.modifyEvent (fun _ => ⟨rfl, rfl, rfl⟩) fun e' he' hk hne => absurd (hpending e' he' hk) hne

theorem answeredEvent_of_ne {now : Time} {reply : Reply} {e : Event F} (h : e.state ≠ .pending) :
    World.answeredEvent now reply e = e := if_neg h

theorem Sound.answered {i : ℕ} {reply : Reply} (h : Sound site w) : Sound site (w.answered i reply) := by
  unfold World.answered
  split
  · exact h
  refine h.modifyEvent (fun e => ?_) fun e _ _ hne => by rw [answeredEvent_of_ne hne]; exact hne
  unfold World.answeredEvent
  split <;> exact ⟨rfl, rfl, rfl⟩

/-- The reads and their answers follow the stay; they change nothing else. -/
theorem Sound.reading {reads : List (Read F)} {answers : List (EventAnswer F)} (h : Sound site w)
    (hr : ∀ r ∈ reads, r.stay.communicationRevision ≤ w.stay.communicationRevision ∧
      (r.admitted = true ∨ Apartments.Morning.told r.stay = true ∧ ended r.stay w.now = false →
        Agrees w.events r.stay))
    (ha : ∀ a ∈ answers, a.Truthful) : Sound site { w with reads := reads, answers := answers } :=
  ⟨⟨h.base.production, h.base.phone, h.base.keys, h.base.revisions, h.base.pending, h.base.fingerprint,
    h.base.verified, hr, ha⟩, h.told, ⟨h.paying.attempts, h.paying.checkouts, h.paying.created, h.paying.checked⟩⟩

theorem Sound.read {event : Uuid} {authorised : Bool} (h : Sound site w) : Sound site (w.read event authorised) := by
  unfold World.read
  split
  swap
  · exact h
  refine h.reading (fun r hr => ?_) h.base.answers
  rcases List.mem_append.1 hr with hr | hr
  · exact h.base.reads r hr
  · obtain rfl := List.mem_singleton.1 hr
    refine ⟨le_rfl, fun hok => ?_⟩
    rcases hok with hok | ⟨ht, he⟩
    · cases hok
    · exact h.told ht he

theorem Sound.checkAdmission {i : ℕ} (h : Sound site w) : Sound site (w.checkAdmission i) := by
  unfold World.checkAdmission
  split
  · exact h
  rename_i r hi
  have hr := h.base.reads r (List.mem_of_getElem? hi)
  split
  · rename_i hok
    refine h.reading (fun r' hr' => ?_) h.base.answers
    rcases List.mem_or_eq_of_mem_set hr' with hr' | rfl
    · exact h.base.reads r' hr'
    · exact ⟨hr.1, fun _ => hr.2 (.inr ⟨hok.1, hok.2.2⟩)⟩
  · exact h.reading (fun r' hr' => h.base.reads r' (List.mem_of_mem_eraseIdx hr')) h.base.answers

theorem Sound.payload {i : ℕ} (h : Sound site w) : Sound site (w.payload i) := by
  unfold World.payload
  split
  · exact h
  rename_i r hi
  have hleft : ∀ r' ∈ w.reads.eraseIdx i, _ := fun r' hr' => h.base.reads r' (List.mem_of_mem_eraseIdx hr')
  split
  swap
  · exact h
  rename_i hadmitted
  split
  · exact h.reading hleft h.base.answers
  rename_i e hfind
  have he := List.mem_of_find?_eq_some hfind
  have hrev : e.revision = r.stay.communicationRevision := by simpa using List.find?_some hfind
  refine h.reading hleft fun p hp => ?_
  rcases List.mem_append.1 hp with hp | hp
  · exact h.base.answers p hp
  · obtain rfl := List.mem_singleton.1 hp
    exact ⟨hrev, (h.base.reads r (List.mem_of_getElem? hi)).2 (.inl hadmitted) e he hrev⟩

theorem ended_of_later {now later : Time} (hle : now ≤ later) (h : ended s later = false) : ended s now = false := by
  simp only [ended, Bool.and_eq_false_iff, decide_eq_false_iff_not, not_le] at h ⊢
  exact h.imp id (lt_of_le_of_lt hle)

theorem Sound.tick {seconds : ℕ} (h : Sound site w) : Sound site { w with now := w.now + seconds } := by
  have hle : w.now ≤ w.now + seconds := Nat.le_add_right ..
  refine ⟨⟨h.base.production, h.base.phone, h.base.keys, h.base.revisions, h.base.pending, h.base.fingerprint,
    h.base.verified, fun r hr => ⟨(h.base.reads r hr).1, fun hok => (h.base.reads r hr).2 ?_⟩, h.base.answers⟩,
    fun ht he => h.told ht (ended_of_later hle he),
    ⟨h.paying.attempts, h.paying.checkouts, h.paying.created, h.paying.checked⟩⟩
  exact hok.imp id fun ⟨ht, he⟩ => ⟨ht, ended_of_later hle he⟩

theorem Sound.step [DecidableEq F] (h : Sound site w) (a : Action) : Sound site (w.step site a) := by
  cases a with
  | tick seconds => exact h.tick
  | listed property listing =>
    exact ⟨⟨h.base.production, h.base.phone, h.base.keys, h.base.revisions, h.base.pending, h.base.fingerprint,
      h.base.verified, h.base.reads, h.base.answers⟩, h.told,
      ⟨h.paying.attempts, h.paying.checkouts, h.paying.created, h.paying.checked⟩⟩
  | claimCheckout attempt merchant available event => exact h.claimCheckout
  | checkoutReply i reply => exact h.checkoutReply
  | checkoutUnknown i => exact h.checkoutUnknown
  | checkoutReview i => exact h.checkoutReview
  | verify settings attempt => exact h.verify
  | verified i answer recorded others event => exact h.verified
  | change asked event => exact h.change
  | cancel event => exact h.cancel
  | resend available event => exact h.resend
  | billing event => exact h.billing
  | claimEvent skipped => exact h.claimEvent
  | answered i reply => exact h.answered
  | read event authorised => exact h.read
  | checkAdmission i => exact h.checkAdmission
  | payload i => exact h.payload

/-! ### Settled events -/

/-- What a step leaves of the events that are settled. -/
def Settles (w w' : World F) : Prop := ∀ e ∈ w.events, e.state ≠ .pending → e ∈ w'.events

theorem Settles.modifyEvent {pk : Uuid} {f : Event F → Event F} {workers : List Uuid}
    (hf : ∀ e ∈ w.events, e.pk = pk → e.state ≠ .pending → f e = e) :
    Settles w { w.modifyEvent pk f with workers := workers } := by
  intro e he hs
  refine Table.mem_modify.2 ⟨e, he, ?_⟩
  split
  · rename_i hk
    exact hf e he hk hs
  · rfl

theorem Settles.claimEvent {skipped : List Uuid} (h : (w.events.map (·.pk)).Nodup) :
    Settles w (w.claimEvent skipped) := by
  unfold World.claimEvent
  split
  · exact fun e he _ => he
  rename_i e hfind
  have he := List.mem_of_find?_eq_some hfind
  have hpending : ∀ e' ∈ w.events, e'.pk = e.pk → e'.state = .pending := fun e' he' hk => by
    rw [Table.eq_of_mem_of_key h he' he hk]
    exact claimable_pending (List.find?_some hfind)
  split
  · exact Settles.modifyEvent fun e' he' hk hne => absurd (hpending e' he' hk) hne
  · exact Settles.modifyEvent fun e' he' hk hne => absurd (hpending e' he' hk) hne

theorem Settles.answered {i : ℕ} {reply : Reply} : Settles w (w.answered i reply) := by
  unfold World.answered
  split
  · exact fun e he _ => he
  · exact Settles.modifyEvent fun e _ _ hne => answeredEvent_of_ne hne

variable [DecidableEq F]

theorem Settles.commit {event : Uuid} (hev : w'.events = w.events) : Settles w (World.commit site event w w') := by
  unfold World.commit
  split
  · exact fun e he _ => he
  intro e he hs
  rw [← hev] at he
  rcases capture_cases site (w'.listings w'.stay.property) w'.attempts w'.now event w'.stay w'.events with ⟨heq, -⟩ | ⟨phone, -, heq⟩
  · simp only [heq]
    exact he
  · simp only [heq]
    exact List.mem_append_left _ (List.mem_map.2 ⟨e, he, supersede_of_ne hs⟩)

theorem Settles.step (h : (w.events.map (·.pk)).Nodup) (a : Action) : Settles w (w.step site a) := by
  have hsame : ∀ w' : World F, w'.events = w.events → Settles w w' := fun w' hw e he _ => hw ▸ he
  cases a with
  | tick seconds => exact hsame _ rfl
  | listed property listing => exact hsame _ rfl
  | claimCheckout attempt merchant available event =>
    unfold World.step World.claimCheckout
    dsimp only
    split
    · exact hsame _ rfl
    · exact Settles.commit rfl
  | checkoutReply i reply =>
    unfold World.step World.checkoutReply
    dsimp only
    split
    · cases reply <;> exact hsame _ rfl
    · exact hsame _ rfl
  | checkoutUnknown i =>
    unfold World.step World.checkoutUnknown
    dsimp only
    split
    · split <;> exact hsame _ rfl
    · exact hsame _ rfl
  | checkoutReview i =>
    unfold World.step World.checkoutReview
    dsimp only
    split <;> exact hsame _ rfl
  | verify settings attempt =>
    unfold World.step World.verify
    dsimp only
    split
    · exact hsame _ rfl
    · split <;> exact hsame _ rfl
  | verified i answer recorded others event =>
    unfold World.step World.verified
    dsimp only
    split
    · exact hsame _ rfl
    split
    · exact hsame _ rfl
    split
    · exact hsame _ rfl
    split
    · exact hsame _ rfl
    · exact Settles.commit (w := { w with checks := w.checks.eraseIdx i }) rfl
  | change asked event =>
    unfold World.step World.change
    dsimp only
    split
    · exact hsame _ rfl
    split
    · exact hsame _ rfl
    · exact Settles.commit rfl
  | cancel event =>
    unfold World.step World.cancel
    dsimp only
    split
    · exact hsame _ rfl
    · exact Settles.commit rfl
  | resend available event =>
    unfold World.step World.resend
    dsimp only
    split
    · exact hsame _ rfl
    · exact Settles.commit rfl
  | billing event =>
    unfold World.step World.billing
    dsimp only
    split
    · exact hsame _ rfl
    · exact Settles.commit rfl
  | claimEvent skipped => exact Settles.claimEvent h
  | answered i reply => exact Settles.answered
  | read event authorised =>
    unfold World.step World.read
    dsimp only
    split <;> exact hsame _ rfl
  | checkAdmission i =>
    unfold World.step World.checkAdmission
    dsimp only
    split
    · exact hsame _ rfl
    · split <;> exact hsame _ rfl
  | payload i =>
    unfold World.step World.payload
    dsimp only
    split
    · exact hsame _ rfl
    split
    · split <;> exact hsame _ rfl
    · exact hsame _ rfl

/-! ### The stay, its outbox and the gateway -/

/-- A stay with its outbox, and the gateway that its messages share with those of other stays. -/
structure Bridge (F H : Type) where
  world : World F
  gateway : Gateway H

namespace Bridge

variable {H : Type} [DecidableEq H] {gate : GatewaySite H} {b : Bridge F H}

inductive Act (F : Type)
  | website (a : Action)
  | send (token : Option DeliveryToken) (request : Option Message)
  | sendOther (s : Stay F) (attempts : List MorningPaymentAttempt) (token : Option DeliveryToken)
      (request : Option Message)
  | call (i : ℕ) (send : UltraMsg.Send)
  | record (i : ℕ)

def step (site : Site F) (gate : GatewaySite H) (b : Bridge F H) : Act F → Bridge F H
  | .website a => { b with world := b.world.step site a }
  | .send token request =>
    { b with gateway := (b.gateway.sendMessage gate b.world.stay b.world.attempts b.world.now token request).1 }
  | .sendOther s attempts token request =>
    { b with gateway := (b.gateway.sendMessage gate s attempts b.world.now token request).1 }
  | .call i send => { b with gateway := b.gateway.call i send }
  | .record i => { b with gateway := b.gateway.record i }

/-- A production stay that has just been saved, with a phone as the form leaves it, and a gateway no request of which is
under way. -/
structure Fresh (site : Site F) (b : Bridge F H) : Prop where
  production : b.world.stay.environment = "production"
  phone : site.normalize b.world.stay.guestPhone = some b.world.stay.guestPhone
  revision : b.world.stay.communicationRevision = 0
  payment : b.world.attempts = [] ∧ b.world.checkouts = [] ∧ b.world.checks = []
  outbox : b.world.events = [] ∧ b.world.reads = [] ∧ b.world.answers = []
  gateway : b.gateway.senders = [] ∧ b.gateway.called = []

/-- What the outbox promises of its state. -/
structure Truthful (b : Bridge F H) : Prop where
  revisions : b.world.events.map (·.revision) = List.range' 1 b.world.stay.communicationRevision
  pending : ∀ e ∈ b.world.events, e.state = .pending → e.revision = b.world.stay.communicationRevision
  single : ∀ e ∈ b.world.events, ∀ e' ∈ b.world.events, e.state = .pending → e'.state = .pending → e = e'
  answers : ∀ a ∈ b.world.answers, a.Truthful
  called : (b.gateway.called.map (·.referenceId)).Nodup

/-- The invariant of the runs. -/
def Good (site : Site F) (gate : GatewaySite H) (b : Bridge F H) : Prop :=
  Sound site b.world ∧ Gateway.Single gate b.gateway

omit [DecidableEq F] [DecidableEq H] in
theorem Fresh.good (h : Fresh site b) : Good site gate b := by
  obtain ⟨ha, hco, hch⟩ := h.payment
  obtain ⟨hev, hre, han⟩ := h.outbox
  obtain ⟨hs, hc⟩ := h.gateway
  refine ⟨⟨⟨h.production, h.phone, by simp [hev], by simp [hev, h.revision], by simp [hev], by simp [hev],
    by simp [h.revision], by simp [hre], by simp [han]⟩, fun _ _ => by simp [Agrees, hev], ?_⟩, ?_⟩
  · exact ⟨by simp [ha], by simp [hco], by simp [hco], by simp [hch]⟩
  · constructor <;> simp [hc, Gateway.waiting, hs]

theorem Good.step (h : Good site gate b) (a : Act F) : Good site gate (b.step site gate a) := by
  cases a with
  | website a => exact ⟨h.1.step a, h.2⟩
  | send token request => exact ⟨h.1, h.2.sendMessage⟩
  | sendOther s attempts token request => exact ⟨h.1, h.2.sendMessage⟩
  | call i send => exact ⟨h.1, h.2.call⟩
  | record i => exact ⟨h.1, h.2.record⟩

omit [DecidableEq F] [DecidableEq H] in
theorem Good.truthful (h : Good site gate b) : Truthful b :=
  ⟨h.1.base.revisions, h.1.base.pending, fun _ he _ he' hp hp' => h.1.base.unique he he'
    ((h.1.base.pending _ he hp).trans (h.1.base.pending _ he' hp').symm), h.1.base.answers, h.2.references⟩

theorem Good.settles (h : Good site gate b) {a : Act F} {e : Event F} (he : e ∈ b.world.events) (hs : e.state ≠ .pending) :
    e ∈ (b.step site gate a).world.events := by
  cases a with
  | website a => exact Settles.step h.1.base.keys a e he hs
  | send token request => exact he
  | sendOther s attempts token request => exact he
  | call i send => exact he
  | record i => exact he

/-- Whatever is saved, delivered, read and sent, in whatever order: the revisions have no gap, only the last event may be
pending, an event that is settled stays as it is, an answer tells the stay that was read, and the provider is called at
most once for a reference. -/
theorem outbox_tells_last_truth (h : Fresh site b) (as bs : List (Act F)) :
    Truthful (run (step site gate) b as) ∧
      ∀ e ∈ (run (step site gate) b as).world.events, e.state ≠ .pending →
        e ∈ (run (step site gate) b (as ++ bs)).world.events := by
  have hgood : Good site gate (run (step site gate) b as) := run_inv (fun _ a hb => hb.step a) h.good as
  refine ⟨hgood.truthful, fun e he hs => ?_⟩
  rw [run_append]
  refine (run_inv (I := fun b => Good site gate b ∧ e ∈ b.world.events) (fun b a hb => ?_) ⟨hgood, he⟩ bs).2
  exact ⟨hb.1.step a, hb.1.settles hb.2 hs⟩

/-! ### A stay that is paid and renamed -/

def stayPk : Uuid := ⟨"07000000-0000-4000-8000-000000000001", rfl⟩

def attemptPk : Uuid := ⟨"07000000-0000-4000-8000-000000000002", rfl⟩

def firstEvent : Uuid := ⟨"07000000-0000-4000-8000-000000000003", rfl⟩

def secondEvent : Uuid := ⟨"07000000-0000-4000-8000-000000000004", rfl⟩

def openStay : Stay Values where
  pk := stayPk
  environment := "production"
  status := .opened
  endsAt := 40000
  paidAt := none
  property := 7
  startsAt := 20000
  timeZone := "Asia/Riyadh"
  guestName := "Guest"
  guestPhone := "+966500000001"
  guestEmail := "guest@example.com"
  guestLanguage := "en"
  guests := 2
  amountSar := 100
  communicationRevision := 0
  communicationFingerprint := none

/-- The numbers of this stay are in their own format. -/
def plainSite : Site Values where
  normalize p := if p = "+966500000001" ∨ p = "+966500000002" then some p else none
  digest := id
  sameMorning _ start stop := decide (start < stop ∧ stop ≤ start + 12 * 3600)
  normalize_idem p q h := by
    split at h
    · rename_i hp
      cases h
      exact if_pos hp
    · cases h
  digest_injective := Function.injective_id
  sameMorning_short _ _ _ h := by
    exact (of_decide_eq_true h).2.trans (Nat.add_le_add_left (by decide) _)

/-- The digest of the one key that is posted. -/
def plainGate : GatewaySite Message where
  enabled := true
  workGroupId := "120363408128237629@g.us"
  md5 key := if key = "lsa07:07000000-0000-4000-8000-000000000001:r2:status" then
    "1fdad203c7dd7a17b63342e516e3056c" else key
  payloadHash := id

def openBridge : Bridge Values Message where
  world := ⟨1000, fun _ => ⟨some 7, "Listing"⟩, openStay, [], [], [], [], [], [], []⟩
  gateway := ⟨[], [], []⟩

def paidAnswer : Answer := ⟨{ answerDocument "000.000.000" with merchantTransactionId := .text "AM-1" }, false, false⟩

def renamed : ChangeAsked :=
  ⟨1000, 7, 20000, 40000, "Asia/Riyadh", "Renamed", "+966500000001", "guest@example.com", "en", 2, true, true⟩

def renamedMessage : Message where
  referenceId := "lsa07-1fdad203c7dd7a17b63342e516e3056c"
  jobKey := "lsa07:07000000-0000-4000-8000-000000000001:r2:status"
  messageType := .statusModified
  messageBody := "Morning stay updated"
  recipientKind := .guest
  recipientPhone := "966500000001"
  rest := ""

/-- The stay is paid and renamed while its first event is being delivered; a read answers the second revision, and its
message is sent once. -/
def paidAndRenamed : List (Act Values) :=
  ([.claimCheckout attemptPk "AM-1" true firstEvent, .checkoutReply 0 (.valid "checkout-1"),
    .verify liveSettings attemptPk, .verified 0 paidAnswer [] [] firstEvent, .claimEvent [],
    .change renamed secondEvent, .read firstEvent true, .checkAdmission 0, .payload 0,
    .answered 0 (.response 202 true firstEvent.str)] : List Action).map .website ++
  [.send (some ⟨stayPk, 2, 1000⟩) (some renamedMessage), .send (some ⟨stayPk, 2, 1000⟩) (some renamedMessage),
    .call 0 ⟨true, .ok ⟨"true", "wa-1"⟩⟩, .record 0]

theorem openBridge_fresh : Fresh plainSite openBridge :=
  ⟨rfl, by decide, rfl, ⟨rfl, rfl, rfl⟩, ⟨rfl, rfl, rfl⟩, ⟨rfl, rfl⟩⟩

theorem outbox_tells_renamed :
    Truthful (run (step plainSite plainGate) openBridge paidAndRenamed) ∧
      (run (step plainSite plainGate) openBridge paidAndRenamed).world.stay.communicationRevision = 2 ∧
      (run (step plainSite plainGate) openBridge paidAndRenamed).world.answers.map (·.event.values.facts.guestName) =
        ["Renamed"] ∧
      (run (step plainSite plainGate) openBridge paidAndRenamed).gateway.called = [renamedMessage] :=
  ⟨(outbox_tells_last_truth openBridge_fresh paidAndRenamed []).1, by decide +kernel, by decide +kernel,
    by decide +kernel⟩

end Bridge

end Apartments.Morning
