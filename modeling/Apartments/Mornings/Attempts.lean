import Apartments.Mornings.Answers

/-!
# The attempts of a morning stay (`morning_payments.py`, `morning07_changes.py`)

A stay has one attempt at most that is undecided or has succeeded. `verify_payment` goes on with every attempt that has
not succeeded, also with one that was decided long ago, and then writes the stay from that attempt alone.
-/

namespace Apartments.Morning

open Payments HyperPay Verification

variable {F : Type} {w w' : World F} {i : ℕ} {pk : Uuid}

/-- The status of an attempt whose checkout is that far. -/
def CheckoutStage.allows : CheckoutStage → PaymentStatus → Prop
  | .waiting, s => s = .created
  | .raising, s => s = .created ∨ s = .failed
  | .failing, s => s = .unknown

/-- One attempt of the stay at most is undecided or has succeeded, and a paid stay has one that has succeeded. -/
structure Ledger (w : World F) : Prop where
  paying : Paying w
  own : ∀ a ∈ w.attempts, a.stay = w.stay.pk
  single : ∀ a ∈ w.attempts, ∀ b ∈ w.attempts, unresolved a.status = true → unresolved b.status = true → a = b
  stages : ∀ c ∈ w.checkouts, ∀ a ∈ w.attempts, a.pk = c.1 → c.2.allows a.status
  unpaid : ∀ a ∈ w.attempts, a.status ≠ .succeeded → a.providerPaymentId = none
  paid : w.stay.status = .paid → ∃ a ∈ w.attempts, a.status = .succeeded

/-- The stay was paid or cancelled. If it is for review without an attempt that has succeeded, then it waits for one that
cannot be verified: the attempt of a checkout that failed when the stay was cancelled. -/
def Closed (w : World F) : Prop :=
  w.stay.status = .cancelled ∨
    (w.stay.status = .paid ∨ w.stay.status = .review) ∧ (∃ a ∈ w.attempts, a.status = .succeeded) ∨
    w.stay.status = .review ∧ ∃ a ∈ w.attempts, a.status = .unknown ∧ a.providerCheckoutId = none

theorem Closed.status (h : Closed w) : w.stay.status = .paid ∨ w.stay.status = .review ∨ w.stay.status = .cancelled := by
  rcases h with h | ⟨h | h, -⟩ | ⟨h, -⟩
  · exact .inr (.inr h)
  · exact .inl h
  · exact .inr (.inl h)
  · exact .inr (.inl h)

theorem Ledger.closed (h : Ledger w) (hs : w.stay.status = .paid ∨ w.stay.status = .cancelled) : Closed w := by
  rcases hs with hs | hs
  · exact .inr (.inl ⟨.inl hs, h.paid hs⟩)
  · exact .inl hs

/-- What a step comes to: the ledger stays, and a closed stay stays closed. -/
structure Advances (w w' : World F) : Prop where
  ledger : Ledger w'
  closed : Closed w → Closed w'

theorem Advances.refl (h : Ledger w) : Advances w w := ⟨h, id⟩

theorem Ledger.of_eq (h : Ledger w) (hpk : w'.stay.pk = w.stay.pk) (hstatus : w'.stay.status = w.stay.status)
    (ha : w'.attempts = w.attempts) (hco : w'.checkouts = w.checkouts)
    (hch : ∀ c ∈ w'.checks, ∃ a ∈ w.attempts, a.pk = c.2.pk ∧ a.providerCheckoutId ≠ none) : Ledger w' where
  paying := ⟨ha ▸ h.paying.attempts, hco ▸ h.paying.checkouts, by rw [ha, hco]; exact h.paying.created, by rwa [ha]⟩
  own := by rw [ha, hpk]; exact h.own
  single := by rw [ha]; exact h.single
  stages := by rw [ha, hco]; exact h.stages
  unpaid := by rw [ha]; exact h.unpaid
  paid := by rw [ha, hstatus]; exact h.paid

theorem Closed.of_eq (h : Closed w) (hstatus : w'.stay.status = w.stay.status) (ha : w'.attempts = w.attempts) :
    Closed w' := by
  unfold Closed
  rw [hstatus, ha]
  exact h

/-- The payment of the stay is left alone. -/
theorem Ledger.advances (h : Ledger w) (hpk : w'.stay.pk = w.stay.pk) (hstatus : w'.stay.status = w.stay.status)
    (ha : w'.attempts = w.attempts) (hco : w'.checkouts = w.checkouts)
    (hch : ∀ c ∈ w'.checks, ∃ a ∈ w.attempts, a.pk = c.2.pk ∧ a.providerCheckoutId ≠ none) : Advances w w' :=
  ⟨h.of_eq hpk hstatus ha hco hch, fun hc => hc.of_eq hstatus ha⟩

section Commit

variable [DecidableEq F] {site : Site F} {event : Uuid}

/-- A save writes the payment as the transaction left it, or not at all. -/
theorem Advances.commit (h : Ledger w) (ha : Advances w w') : Advances w (World.commit site event w w') := by
  rcases commit_cases site event w w' with heq | heq | ⟨phone, -, heq⟩
  · rw [heq]
    exact .refl h
  · rwa [heq]
  · rw [heq]
    exact ⟨ha.ledger.of_eq rfl rfl rfl rfl ha.ledger.paying.checked, fun hc => (ha.closed hc).of_eq rfl rfl⟩

end Commit

/-! ### Checkouts -/

theorem not_collecting (h : w.collecting = false) {a : MorningPaymentAttempt} (ha : a ∈ w.attempts) :
    unresolved a.status = false := by
  rw [World.collecting, List.any_eq_false] at h
  simpa using h a ha

/-- One attempt of the stay is rewritten. -/
theorem Ledger.modify {f : MorningPaymentAttempt → MorningPaymentAttempt} {checkouts : List (Uuid × CheckoutStage)}
    {checks : List (Settings × MorningPaymentAttempt)} (stay : Stay F) (h : Ledger w)
    (hp : Paying { w.modifyAttempt pk f with checkouts := checkouts, checks := checks }) (hpk : stay.pk = w.stay.pk)
    (hkey : ∀ a ∈ w.attempts, a.pk = pk → (f a).stay = a.stay)
    (hsingle : ∀ a ∈ w.attempts, a.pk = pk → unresolved (f a).status = true →
      ∀ b ∈ w.attempts, b.pk ≠ pk → unresolved b.status = false)
    (hstages : ∀ c ∈ checkouts, ∀ a ∈ w.attempts, a.pk = c.1 → c.2.allows (if a.pk = pk then f a else a).status)
    (hname : ∀ a, a.pk = pk → (f a).pk = pk)
    (hids : ∀ a ∈ w.attempts, a.pk = pk → (f a).status ≠ .succeeded → (f a).providerPaymentId = none)
    (hpaid : stay.status = .paid → ∃ a ∈ w.attempts, (if a.pk = pk then f a else a).status = .succeeded) :
    Ledger { w.modifyAttempt pk f with stay := stay, checkouts := checkouts, checks := checks } := by
  refine ⟨⟨hp.attempts, hp.checkouts, hp.created, hp.checked⟩, ?_, ?_, ?_, ?_, ?_⟩
  · intro a ha
    obtain ⟨a₀, ha₀, rfl⟩ := Table.mem_modify.1 ha
    have hown := h.own a₀ ha₀
    split_ifs with hk
    · exact (hkey a₀ ha₀ hk).trans (hown.trans hpk.symm)
    · exact hown.trans hpk.symm
  · intro a ha b hb hau hbu
    obtain ⟨a₀, ha₀, rfl⟩ := Table.mem_modify.1 ha
    obtain ⟨b₀, hb₀, rfl⟩ := Table.mem_modify.1 hb
    split_ifs at hau hbu ⊢ with hka hkb hkb
    · rw [h.paying.unique ha₀ hb₀ (hka.trans hkb.symm)]
    · rw [hsingle a₀ ha₀ hka hau b₀ hb₀ hkb] at hbu
      cases hbu
    · rw [hsingle b₀ hb₀ hkb hbu a₀ ha₀ hka] at hau
      cases hau
    · exact h.single a₀ ha₀ b₀ hb₀ hau hbu
  · intro c hc a ha hk
    obtain ⟨a₀, ha₀, rfl⟩ := Table.mem_modify.1 ha
    refine hstages c hc a₀ ha₀ ?_
    split_ifs at hk with hka
    · rw [hka, ← hname a₀ hka, hk]
    · exact hk
  · intro a ha hs
    obtain ⟨a₀, ha₀, rfl⟩ := Table.mem_modify.1 ha
    split_ifs at hs ⊢ with hka
    · exact hids a₀ ha₀ hka hs
    · exact h.unpaid a₀ ha₀ hs
  · intro hs
    obtain ⟨a, ha, hsa⟩ := hpaid hs
    exact ⟨_, Table.mem_modify.2 ⟨a, ha, rfl⟩, hsa⟩

section Claim

variable [DecidableEq F] {site : Site F} {event : Uuid}

theorem Ledger.claimCheckout {merchantTransactionId : String} {available : Bool} (h : Ledger w) :
    Advances w (w.claimCheckout site pk merchantTransactionId available event) := by
  unfold World.claimCheckout
  split
  · exact .refl h
  rename_i hc
  simp only [not_or, Bool.not_eq_true, Option.isSome_eq_false_iff] at hc
  obtain ⟨-, hstatus, -, hcollecting, hfresh, -⟩ := hc
  refine Advances.commit h ⟨⟨h.paying.claim hfresh, ?_, ?_, ?_, ?_, nofun⟩, fun hclosed => ?_⟩
  · intro a ha
    rcases List.mem_append.1 ha with ha | ha
    · exact h.own a ha
    · rw [List.mem_singleton.1 ha]
      rfl
  · intro a ha b hb hau hbu
    rcases List.mem_append.1 ha with ha | ha
    · rw [not_collecting hcollecting ha] at hau
      cases hau
    · rcases List.mem_append.1 hb with hb | hb
      · rw [not_collecting hcollecting hb] at hbu
        cases hbu
      · rw [List.mem_singleton.1 ha, List.mem_singleton.1 hb]
  · intro c hc a ha hk
    rcases List.mem_append.1 hc with hc | hc
    · rcases List.mem_append.1 ha with ha | ha
      · exact h.stages c hc a ha hk
      · obtain ⟨b, hb, hbk, -⟩ := h.paying.created c hc
        rw [List.mem_singleton.1 ha] at hk
        exact absurd (List.mem_map.2 ⟨b, hb, hbk.trans hk.symm⟩) hfresh
    · rw [List.mem_singleton.1 hc] at hk ⊢
      rcases List.mem_append.1 ha with ha | ha
      · exact absurd (List.mem_map.2 ⟨a, ha, hk⟩) hfresh
      · rw [List.mem_singleton.1 ha]
        rfl
  · intro a ha hs
    rcases List.mem_append.1 ha with ha | ha
    · exact h.unpaid a ha hs
    · rw [List.mem_singleton.1 ha]
      rfl
  · rcases hclosed.status with hs | hs | hs <;> simp [hs] at hstatus

end Claim

/-- The attempt of a checkout under way. -/
theorem Ledger.checkout (h : Ledger w) {stage : CheckoutStage} (hi : w.checkouts[i]? = some (pk, stage)) :
    ∃ a ∈ w.attempts, a.pk = pk ∧ a.providerCheckoutId = none ∧ stage.allows a.status := by
  have hc := List.mem_of_getElem? hi
  obtain ⟨a, ha, hk, hid, -⟩ := h.paying.created _ hc
  exact ⟨a, ha, hk, hid, h.stages _ hc a ha hk⟩

/-- The attempts that have succeeded stay, and so do those that cannot be verified, if the one that is rewritten is not
one of them. -/
theorem Closed.modify {f : MorningPaymentAttempt → MorningPaymentAttempt} (h : Closed w)
    (hs : w'.stay.status = w.stay.status) (ha : w'.attempts = (w.modifyAttempt pk f).attempts)
    (hf : ∀ a ∈ w.attempts, a.pk = pk → a.status ≠ .succeeded ∧
      (a.status = .unknown → a.providerCheckoutId = none → (f a).status = .unknown ∧ (f a).providerCheckoutId = none)) :
    Closed w' := by
  unfold Closed
  rw [hs, ha]
  rcases h with h | ⟨hst, a, hmem, hsa⟩ | ⟨hst, a, hmem, hsa, hid⟩
  · exact .inl h
  · exact .inr (.inl ⟨hst, a, Table.mem_modify_of_ne hmem fun hk => (hf a hmem hk).1 hsa, hsa⟩)
  · refine .inr (.inr ⟨hst, _, Table.mem_modify.2 ⟨a, hmem, rfl⟩, ?_⟩)
    split_ifs with hk
    · exact (hf a hmem hk).2 hsa hid
    · exact ⟨hsa, hid⟩

/-- What the list of checkouts says of an attempt whose checkout went on. -/
theorem Ledger.stages_set (h : Ledger w) {stage stage' : CheckoutStage} {f : MorningPaymentAttempt → MorningPaymentAttempt}
    (hi : w.checkouts[i]? = some (pk, stage)) (hf : ∀ a, a.pk = pk → stage.allows a.status → stage'.allows (f a).status) :
    ∀ c ∈ w.checkouts.set i (pk, stage'), ∀ a ∈ w.attempts, a.pk = c.1 →
      c.2.allows (if a.pk = pk then f a else a).status := by
  intro c hc a ha hk
  rcases Table.mem_set_cases h.paying.checkouts hi hc with rfl | ⟨hc, hne⟩
  · have hk : a.pk = pk := hk
    rw [if_pos hk]
    exact hf a hk (h.stages _ (List.mem_of_getElem? hi) a ha hk)
  · have hne : a.pk ≠ pk := fun hp => hne (hk.symm.trans hp)
    rw [if_neg hne]
    exact h.stages c hc a ha hk

theorem Ledger.stages_erase (h : Ledger w) {stage : CheckoutStage} {f : MorningPaymentAttempt → MorningPaymentAttempt}
    (hi : w.checkouts[i]? = some (pk, stage)) :
    ∀ c ∈ w.checkouts.eraseIdx i, ∀ a ∈ w.attempts, a.pk = c.1 → c.2.allows (if a.pk = pk then f a else a).status := by
  intro c hc a ha hk
  obtain ⟨hc, hne⟩ := Table.mem_eraseIdx_cases h.paying.checkouts hi hc
  have hne : a.pk ≠ pk := fun hp => hne (hk.symm.trans hp)
  rw [if_neg hne]
  exact h.stages c hc a ha hk

/-- A paid stay keeps the attempt that has succeeded when another one is rewritten. -/
theorem Ledger.paid_modify (h : Ledger w) {f : MorningPaymentAttempt → MorningPaymentAttempt}
    (hf : ∀ a ∈ w.attempts, a.pk = pk → a.status ≠ .succeeded) (hs : w.stay.status = .paid) :
    ∃ a ∈ w.attempts, (if a.pk = pk then f a else a).status = .succeeded := by
  obtain ⟨a, ha, hsa⟩ := h.paid hs
  refine ⟨a, ha, ?_⟩
  rw [if_neg fun hk => hf a ha hk hsa]
  exact hsa

/-- A checkout goes on to another stage with its attempt rewritten. -/
theorem Ledger.paying_set (h : Ledger w) {stage stage' : CheckoutStage} {f : MorningPaymentAttempt → MorningPaymentAttempt}
    (hi : w.checkouts[i]? = some (pk, stage)) (hpk : ∀ a, (f a).pk = a.pk)
    (hid : ∀ a, (f a).providerCheckoutId = a.providerCheckoutId) (hs : ∀ a, (f a).status ≠ .succeeded) :
    Paying { w.modifyAttempt pk f with checkouts := w.checkouts.set i (pk, stage') } :=
  h.paying.modify (fun a ha => (hpk a).trans ha) (fun a _ ha => by rwa [hid]) ((Paying.set hi).symm ▸ h.paying.checkouts)
    (fun c hc => Paying.set hi ▸ List.mem_map_of_mem hc) (fun _ a _ ha _ => ⟨(hid a).trans ha, hs a⟩) fun _ hc => hc

/-- A checkout goes on, or ends, and leaves its attempt as it is. -/
theorem Ledger.checkouts {checkouts : List (Uuid × CheckoutStage)} (h : Ledger w) (hnd : (checkouts.map Prod.fst).Nodup)
    (hsub : ∀ c ∈ checkouts, c.1 ∈ w.checkouts.map Prod.fst)
    (hstages : ∀ c ∈ checkouts, ∀ a ∈ w.attempts, a.pk = c.1 → c.2.allows a.status) :
    Ledger { w with checkouts := checkouts } := by
  refine ⟨⟨h.paying.attempts, hnd, fun c hc => ?_, h.paying.checked⟩, h.own, h.single, hstages, h.unpaid, h.paid⟩
  obtain ⟨c₀, hc₀, hk⟩ := List.mem_map.1 (hsub c hc)
  exact hk ▸ h.paying.created c₀ hc₀

/-- Beside an attempt that is undecided or has succeeded there is no other. -/
theorem Ledger.others (h : Ledger w) {a : MorningPaymentAttempt} (ha : a ∈ w.attempts) (hu : unresolved a.status = true) :
    ∀ b ∈ w.attempts, b.pk ≠ a.pk → unresolved b.status = false := by
  intro b hb hbk
  by_contra hub
  rw [Bool.not_eq_false] at hub
  exact hbk (by rw [h.single b hb a ha hub hu])

theorem Ledger.checkoutReply {reply : CheckoutReply} (h : Ledger w) : Advances w (w.checkoutReply i reply) := by
  unfold World.checkoutReply
  split
  swap
  · exact .refl h
  rename_i pk hi
  obtain ⟨a₀, ha₀, hk₀, -, hs₀⟩ := h.checkout hi
  have hs₀ : a₀.status = .created := hs₀
  have hone : ∀ a ∈ w.attempts, a.pk = pk → a.status = .created := fun a ha hk => by
    rw [h.paying.unique ha ha₀ (hk.trans hk₀.symm), hs₀]
  have hothers : ∀ b ∈ w.attempts, b.pk ≠ pk → unresolved b.status = false :=
    hk₀ ▸ h.others ha₀ (by rw [hs₀]; rfl)
  have hnot : ∀ a ∈ w.attempts, a.pk = pk → a.status ≠ .succeeded := fun a ha hk => by simp [hone a ha hk]
  have hids : ∀ a ∈ w.attempts, a.pk = pk → a.providerPaymentId = none := fun a ha hk => h.unpaid a ha (hnot a ha hk)
  have hclosed : ∀ {f : MorningPaymentAttempt → MorningPaymentAttempt} {w' : World F}, Closed w →
      w'.stay.status = w.stay.status → w'.attempts = (w.modifyAttempt pk f).attempts → Closed w' :=
    fun hc hs ha => hc.modify hs ha fun a ha hk => ⟨hnot a ha hk, fun hu => by rw [hone a ha hk] at hu; cases hu⟩
  cases reply with
  | valid id =>
    refine ⟨h.modify w.stay (h.paying.modify (fun a ha => ha) (fun _ _ _ => by simp) h.paying.erase.1 h.paying.erase.2
      (fun hp => ?_) fun _ hc => hc) rfl (fun _ _ _ => rfl) (fun _ _ _ _ => hothers) (h.stages_erase hi) (fun a ha => ha)
      (fun a ha hk _ => hids a ha hk) (h.paid_modify hnot), fun hc => hclosed hc rfl rfl⟩
    obtain ⟨c, hc, hk⟩ := List.mem_map.1 hp
    exact absurd hk (Table.mem_eraseIdx_cases h.paying.checkouts hi hc).2
  | invalid =>
    exact ⟨h.modify w.stay (h.paying_set hi (fun _ => rfl) (fun _ => rfl) fun _ => nofun) rfl
      (fun _ _ _ => rfl) (fun _ _ _ _ => hothers) (h.stages_set hi fun _ _ _ => .inr rfl) (fun a ha => ha)
      (fun a ha hk _ => hids a ha hk) (h.paid_modify hnot), fun hc => hclosed hc rfl rfl⟩
  | raised =>
    refine ⟨h.checkouts ((Paying.set hi).symm ▸ h.paying.checkouts)
      (fun c hc => Paying.set hi ▸ List.mem_map_of_mem hc) fun c hc a ha hk => ?_, fun hc => hc.of_eq rfl rfl⟩
    have hgoesOn : ∀ a : MorningPaymentAttempt, a.pk = pk → CheckoutStage.waiting.allows a.status →
        CheckoutStage.raising.allows (id a).status := fun _ _ hs => .inl hs
    have hstages := h.stages_set hi hgoesOn c hc a ha hk
    rwa [id, ite_self] at hstages

/-- The update is dropped while another attempt is undecided or has succeeded. -/
theorem Ledger.checkoutUnknown (h : Ledger w) : Advances w (w.checkoutUnknown i) := by
  unfold World.checkoutUnknown
  split
  swap
  · exact .refl h
  rename_i pk hi
  obtain ⟨a₀, ha₀, hk₀, hid₀, hs₀⟩ := h.checkout hi
  have hone : ∀ a ∈ w.attempts, a.pk = pk → a = a₀ := fun a ha hk => h.paying.unique ha ha₀ (hk.trans hk₀.symm)
  have hnot : ∀ a ∈ w.attempts, a.pk = pk → a.status ≠ .succeeded := by
    intro a ha hk
    rw [hone a ha hk]
    rcases hs₀ with hs₀ | hs₀ <;> simp [hs₀]
  split
  · exact ⟨h.checkouts h.paying.erase.1 h.paying.erase.2 fun c hc => h.stages c (List.mem_of_mem_eraseIdx hc),
      fun hc => hc.of_eq rfl rfl⟩
  · rename_i hguard
    have hothers : ∀ b ∈ w.attempts, b.pk ≠ pk → unresolved b.status = false := by
      intro b hb hbk
      rw [Bool.not_eq_true, List.any_eq_false] at hguard
      simpa [hbk] using hguard b hb
    exact ⟨h.modify w.stay (h.paying_set hi (fun _ => rfl) (fun _ => rfl) fun _ => nofun) rfl
      (fun _ _ _ => rfl) (fun _ _ _ _ => hothers) (h.stages_set hi fun _ _ _ => rfl) (fun a ha => ha)
      (fun a ha hk _ => h.unpaid a ha (hnot a ha hk)) (h.paid_modify hnot),
      fun hc => hc.modify rfl rfl fun a ha hk => ⟨hnot a ha hk, fun _ hid => ⟨rfl, hid⟩⟩⟩

/-- The stay waits for the attempt of the checkout that failed. -/
theorem Ledger.checkoutReview (h : Ledger w) : Advances w (w.checkoutReview i) := by
  unfold World.checkoutReview
  split
  swap
  · exact .refl h
  rename_i pk hi
  obtain ⟨a₀, ha₀, -, hid₀, hs₀⟩ := h.checkout hi
  have hcheckouts : Ledger { w with checkouts := w.checkouts.eraseIdx i } := h.checkouts h.paying.erase.1
    h.paying.erase.2 fun c hc => h.stages c (List.mem_of_mem_eraseIdx hc)
  exact ⟨⟨⟨h.paying.attempts, hcheckouts.paying.checkouts, hcheckouts.paying.created, h.paying.checked⟩, h.own, h.single,
    hcheckouts.stages, h.unpaid, nofun⟩, fun _ => .inr (.inr ⟨rfl, a₀, ha₀, hs₀, hid₀⟩)⟩

theorem Ledger.verify {settings : Settings} (h : Ledger w) : Advances w (w.verify settings pk) := by
  unfold World.verify
  split
  · exact .refl h
  rename_i a hget
  split
  swap
  · exact .refl h
  rename_i hask
  refine h.advances rfl rfl rfl rfl fun c hc => ?_
  rcases List.mem_append.1 hc with hc | hc
  · exact h.paying.checked c hc
  · refine ⟨a, Table.mem_of_get hget, by rw [List.mem_singleton.1 hc], fun hnone => ?_⟩
    simp only [morningOpening, hnone, true_or, if_true] at hask
    split_ifs at hask

/-! ### Verifications -/

section Verified

variable {settings : Settings} {read a saved : MorningPaymentAttempt} {answer : Answer}

/-- The verification that is about to write: its settings, the attempt as it was read before the request, and as it is
now. -/
def World.writing (w : World F) (i : ℕ) (answer : Answer) :
    Option (Settings × MorningPaymentAttempt × MorningPaymentAttempt) :=
  match w.checks[i]? with
  | none => none
  | some (settings, read) =>
    match Table.get MorningPaymentAttempt.pk w.attempts read.pk with
    | none => none
    | some a => if morningRaises settings read answer ∨ a.status = .succeeded then none else some (settings, read, a)

theorem World.writing_eq_some (h : w.writing i answer = some (settings, read, a)) :
    w.checks[i]? = some (settings, read) ∧ Table.get MorningPaymentAttempt.pk w.attempts read.pk = some a ∧
      morningRaises settings read answer = false ∧ a.status ≠ .succeeded := by
  unfold World.writing at h
  split at h
  · cases h
  rename_i hcheck
  split at h
  · cases h
  rename_i hget
  split at h
  · cases h
  rename_i hopen
  cases h
  rw [not_or, Bool.not_eq_true] at hopen
  exact ⟨hcheck, hget, hopen⟩

/-- The world in which the verification has written. -/
def World.write (w : World F) (i : ℕ) (a saved : MorningPaymentAttempt) : World F :=
  { w.modifyAttempt a.pk fun _ => saved with
    checks := w.checks.eraseIdx i
    stay := { w.stay with toMorningStay := morningStayAfter saved w.now w.stay.toMorningStay } }

/-- What the transaction of a verification saves, if it writes at all. -/
def World.savedBy (w : World F) (i : ℕ) (answer : Answer) (recorded : List String)
    (others : List MorningPaymentAttempt) : Option (MorningPaymentAttempt × MorningPaymentAttempt) :=
  match w.writing i answer with
  | none => none
  | some (settings, read, a) =>
    match morningSaved (w.attempts ++ others)
        (morningWritten settings read answer (fun id => recorded.contains id) w.now a) with
    | none => none
    | some saved => some (a, saved)

theorem World.savedBy_eq_some {recorded : List String} {others : List MorningPaymentAttempt}
    (h : w.savedBy i answer recorded others = some (a, saved)) :
    ∃ settings read, w.writing i answer = some (settings, read, a) ∧
      morningSaved (w.attempts ++ others)
        (morningWritten settings read answer (fun id => recorded.contains id) w.now a) = some saved := by
  unfold World.savedBy at h
  split at h
  · cases h
  rename_i settings read b hwriting
  split at h
  · cases h
  rename_i saved' hs
  obtain ⟨rfl, rfl⟩ : b = a ∧ saved' = saved := by simpa using h
  exact ⟨settings, read, hwriting, hs⟩

/-- A verification that is over writes what it saves, or nothing. -/
theorem World.verified_eq [DecidableEq F] (site : Site F) (w : World F) (i : ℕ) (answer : Answer)
    (recorded : List String) (others : List MorningPaymentAttempt) (event : Uuid) :
    w.verified site i answer recorded others event =
      match w.savedBy i answer recorded others with
      | none => { w with checks := w.checks.eraseIdx i }
      | some (a, saved) => World.commit site event { w with checks := w.checks.eraseIdx i } (w.write i a saved) := by
  unfold World.verified World.savedBy World.writing
  cases hcheck : w.checks[i]? with
  | none => simp only [List.eraseIdx_of_length_le (List.getElem?_eq_none_iff.1 hcheck)]
  | some check =>
    obtain ⟨settings, read⟩ := check
    dsimp only
    cases hget : Table.get MorningPaymentAttempt.pk w.attempts read.pk with
    | none => rfl
    | some a =>
      dsimp only
      by_cases hopen : morningRaises settings read answer = true ∨ a.status = .succeeded
      · simp only [if_pos hopen]
      · simp only [if_neg hopen]
        cases morningSaved (w.attempts ++ others)
            (morningWritten settings read answer (fun id => recorded.contains id) w.now a) with
        | none => rfl
        | some saved => rfl

theorem morningSaved_noConflict {mornings : List MorningPaymentAttempt} (h : morningSaved mornings a = some saved) :
    morningConflict mornings saved = false := by
  unfold morningSaved at h
  split at h
  · dsimp only at h
    split at h
    · cases h
    · rename_i hnot
      cases h
      simpa using hnot
  · rename_i hnot
    cases h
    simpa using hnot

/-- The unique constraints hold of what is saved. -/
theorem noConflict_others {mornings : List MorningPaymentAttempt} (h : morningConflict mornings a = false)
    (hu : unresolved a.status = true) {b : MorningPaymentAttempt} (hb : b ∈ mornings) (hne : b.pk ≠ a.pk)
    (hstay : b.stay = a.stay) : unresolved b.status = false := by
  rw [morningConflict, List.any_eq_false] at h
  by_contra hub
  rw [Bool.not_eq_false] at hub
  exact h b hb (by simp [hne, hstay, hu, hub])

/-- An attempt that was not a success before has a payment id only if it is saved as one. -/
theorem morningSaved_fields {mornings : List MorningPaymentAttempt} {recorded : String → Bool} {now : Time}
    (h : morningSaved mornings (morningWritten settings read answer recorded now a) = some saved)
    (hid : a.providerPaymentId = none) :
    saved.stay = a.stay ∧ (saved.status ≠ .succeeded → saved.providerPaymentId = none) := by
  have hwritten : (morningWritten settings read answer recorded now a).stay = a.stay ∧
      ((morningWritten settings read answer recorded now a).status ≠ .succeeded →
        (morningWritten settings read answer recorded now a).providerPaymentId = none) := by
    unfold morningWritten
    dsimp only
    split
    · rename_i hclass
      split
      · exact ⟨rfl, fun _ => hid⟩
      · split
        · exact ⟨rfl, fun _ => hid⟩
        · exact ⟨rfl, fun hs => absurd (by rw [hclass]; rfl) hs⟩
    · exact ⟨rfl, fun _ => hid⟩
  unfold morningSaved at h
  split at h
  · dsimp only at h
    split at h
    · cases h
    · cases h
      exact ⟨hwritten.1, fun _ => rfl⟩
  · cases h
    exact hwritten

/-- What `World.savedBy` says of the attempt and of what is saved. -/
structure Saved (w : World F) (i : ℕ) (answer : Answer) (recorded : List String) (others : List MorningPaymentAttempt)
    (a saved : MorningPaymentAttempt) : Prop where
  mem : a ∈ w.attempts
  status : a.status ≠ .succeeded
  checkoutId : a.providerCheckoutId ≠ none
  pk : saved.pk = a.pk
  stay : saved.stay = a.stay
  verifiedAt : saved.verifiedAt = some w.now
  paymentId : saved.status ≠ .succeeded → saved.providerPaymentId = none
  single : unresolved saved.status = true → ∀ b ∈ w.attempts, b.pk ≠ a.pk → unresolved b.status = false
  paying : Paying (w.write i a saved)

theorem Ledger.savedBy {recorded : List String} {others : List MorningPaymentAttempt} (h : Ledger w)
    (hsaved : w.savedBy i answer recorded others = some (a, saved)) : Saved w i answer recorded others a saved := by
  obtain ⟨settings, read, hwriting, hs⟩ := World.savedBy_eq_some hsaved
  obtain ⟨hcheck, hget, -, hopen⟩ := World.writing_eq_some hwriting
  have ha := Table.mem_of_get hget
  obtain ⟨hpk, hid, hat⟩ := morningSaved_keys hs
  obtain ⟨hpk', hid', hat'⟩ := morningWritten_keys settings read a answer (fun id => recorded.contains id) w.now
  obtain ⟨hstay, hpayment⟩ := morningSaved_fields hs (h.unpaid a ha hopen)
  have hpaying := h.paying.verified hcheck hget (hpk.trans hpk') (hid.trans hid')
  refine ⟨ha, hopen, ?_, hpk.trans hpk', hstay, hat.trans hat', hpayment, fun hu c hc hne => ?_,
    ⟨hpaying.attempts, hpaying.checkouts, hpaying.created, hpaying.checked⟩⟩
  · obtain ⟨c, hc, hck, hcid⟩ := h.paying.checked _ (List.mem_of_getElem? hcheck)
    rwa [h.paying.unique ha hc ((Table.key_of_get hget).trans hck.symm)]
  · refine noConflict_others (morningSaved_noConflict hs) hu (List.mem_append_left _ hc) ?_ ?_
    · rwa [hpk.trans hpk']
    · rw [hstay, h.own a ha, h.own c hc]

/-- The statuses a verification may leave. -/
theorem morningStayAfter_cases (saved : MorningPaymentAttempt) (now : Time) (s : MorningStay) :
    (morningStayAfter saved now s).pk = s.pk ∧
      (saved.status = .succeeded ∧
          ((morningStayAfter saved now s).status = .paid ∨ (morningStayAfter saved now s).status = .review) ∨
        (saved.status = .review ∨ saved.status = .unknown) ∧ (morningStayAfter saved now s).status = .review ∨
        (saved.status = .failed ∨ saved.status = .cancelled) ∧ (morningStayAfter saved now s).status = .opened ∨
        morningStayAfter saved now s = s) := by
  unfold morningStayAfter
  split
  · rename_i hs
    refine ⟨rfl, .inl ⟨hs, ?_⟩⟩
    dsimp only
    split
    · exact .inl rfl
    · exact .inr rfl
  · exact ⟨rfl, .inr (.inl ⟨by simp [*], rfl⟩)⟩
  · exact ⟨rfl, .inr (.inl ⟨by simp [*], rfl⟩)⟩
  · exact ⟨rfl, .inr (.inr (.inl ⟨by simp [*], rfl⟩))⟩
  · exact ⟨rfl, .inr (.inr (.inl ⟨by simp [*], rfl⟩))⟩
  · exact ⟨rfl, .inr (.inr (.inr rfl))⟩

theorem morningStayAfter_succeeded {now : Time} {s : MorningStay} (h : saved.status = .succeeded) :
    (morningStayAfter saved now s).status = .paid ∨ (morningStayAfter saved now s).status = .review := by
  unfold morningStayAfter
  rw [h]
  dsimp only
  split
  · exact .inl rfl
  · exact .inr rfl

theorem morningStayAfter_pending {now : Time} {s : MorningStay} (h : saved.status = .pending) :
    morningStayAfter saved now s = s := by
  unfold morningStayAfter
  rw [h]

/-- The ledger holds whatever a verification writes. -/
theorem Ledger.write {recorded : List String} {others : List MorningPaymentAttempt} (h : Ledger w)
    (hs : Saved w i answer recorded others a saved) : Ledger (w.write i a saved) := by
  have hone : ∀ b ∈ w.attempts, b.pk = a.pk → b = a := fun b hb hk => h.paying.unique hb hs.mem hk
  obtain ⟨hpk, hstatus⟩ := morningStayAfter_cases saved w.now w.stay.toMorningStay
  refine h.modify _ ⟨hs.paying.attempts, hs.paying.checkouts, hs.paying.created, hs.paying.checked⟩ hpk ?_ ?_ ?_
    (fun _ _ => hs.pk) (fun _ _ _ => hs.paymentId) fun hp => ?_
  · intro b hb hk
    rw [hone b hb hk]
    exact hs.stay
  · exact fun _ _ _ hu => hs.single hu
  · intro c hc b hb hk
    have hne : b.pk ≠ a.pk := by
      intro hk'
      obtain ⟨d, hd, hdk, hdid, -⟩ := h.paying.created c hc
      rw [h.paying.unique hd hs.mem ((hdk.trans hk.symm).trans hk')] at hdid
      exact hs.checkoutId hdid
    rw [if_neg hne]
    exact h.stages c hc b hb hk
  · have hp : (morningStayAfter saved w.now w.stay.toMorningStay).status = .paid := hp
    rcases hstatus with ⟨hsaved, -⟩ | ⟨-, hr⟩ | ⟨-, ho⟩ | hsame
    · exact ⟨a, hs.mem, by rw [if_pos rfl]; exact hsaved⟩
    · rw [hr] at hp
      cases hp
    · rw [ho] at hp
      cases hp
    · rw [hsame] at hp
      exact h.paid_modify (fun b hb hk => hone b hb hk ▸ hs.status) hp

theorem Ledger.verified [DecidableEq F] {site : Site F} {recorded : List String} {others : List MorningPaymentAttempt}
    {event : Uuid} (h : Ledger w) : Ledger (w.verified site i answer recorded others event) := by
  have hdone : Ledger { w with checks := w.checks.eraseIdx i } := h.of_eq rfl rfl rfl rfl fun c hc =>
    h.paying.checked c (List.mem_of_mem_eraseIdx hc)
  rw [World.verified_eq]
  split
  · exact hdone
  rename_i a saved hsaved
  rcases commit_cases site event { w with checks := w.checks.eraseIdx i } (w.write i a saved) with
    heq | heq | ⟨phone, -, heq⟩
  · rw [heq]
    exact hdone
  · rw [heq]
    exact h.write (h.savedBy hsaved)
  · have hw := h.write (h.savedBy hsaved)
    rw [heq]
    exact hw.of_eq rfl rfl rfl rfl hw.paying.checked

/-! ### Verifications that decide -/

/-- The payment id of a document is a new one. -/
def NewId (mornings : List MorningPaymentAttempt) (answer : Answer) (recorded : List String) : Prop :=
  ∃ id ∈ morningId answer.document, id ∉ recorded ∧ ∀ b ∈ mornings, b.providerPaymentId ≠ some id

instance (mornings : List MorningPaymentAttempt) (answer : Answer) (recorded : List String) :
    Decidable (NewId mornings answer recorded) :=
  inferInstanceAs (Decidable (∃ id ∈ _, _ ∧ _))

/-- While another attempt is undecided or has succeeded, the document of this one neither fails nor succeeds; a stay that
is cancelled hears of a pending payment at most, or of a success with a new payment id. The other rows are of other stays,
and the key of the event is a new one. -/
def Decides (w : World F) (answer : Answer) (recorded : List String) (others : List MorningPaymentAttempt) (event : Uuid)
    (settings : Settings) (read a : MorningPaymentAttempt) : Prop :=
  event ∉ w.events.map (·.pk) ∧ (∀ b ∈ others, b.stay ≠ w.stay.pk) ∧
    if ∃ b ∈ w.attempts, b.pk ≠ a.pk ∧ unresolved b.status = true then
      morningClass settings read answer ∉ [HyperPayStatus.success, .failed, .cancelled]
    else
      w.stay.status = .cancelled →
        morningClass settings read answer = .pending ∨
          morningClass settings read answer = .success ∧ NewId (w.attempts ++ others) answer recorded

instance (w : World F) (answer : Answer) (recorded : List String) (others : List MorningPaymentAttempt) (event : Uuid)
    (settings : Settings) (read a : MorningPaymentAttempt) :
    Decidable (Decides w answer recorded others event settings read a) := by
  delta Decides
  infer_instance

/-- Every verification that writes is one that decides. -/
def Deciding (w : World F) : Action → Prop
  | .verified i answer recorded others event =>
    ∀ x ∈ w.writing i answer, Decides w answer recorded others event x.1 x.2.1 x.2.2
  | _ => True

instance (w : World F) : ∀ a, Decidable (Deciding w a)
  | .verified .. => inferInstanceAs (Decidable (∀ x ∈ _, Decides ..))
  | .tick .. | .listed .. | .claimCheckout .. | .checkoutReply .. | .checkoutUnknown .. | .checkoutReview .. | .verify ..
  | .change .. | .cancel .. | .resend .. | .billing .. | .claimEvent .. | .answered .. | .read .. | .checkAdmission ..
  | .payload .. => .isTrue trivial

theorem noConflict_alone {mornings : List MorningPaymentAttempt}
    (hid : ∀ b ∈ mornings, a.providerPaymentId.isSome = true → b.providerPaymentId ≠ a.providerPaymentId)
    (hstay : ∀ b ∈ mornings, b.pk ≠ a.pk → b.stay = a.stay → unresolved b.status = false) :
    morningConflict mornings a = false := by
  rw [morningConflict, List.any_eq_false]
  intro b hb hc
  simp only [Bool.and_eq_true, bne_iff_ne, ne_eq, Bool.or_eq_true, beq_iff_eq] at hc
  obtain ⟨hpk, ⟨hsome, heq⟩ | ⟨⟨hs, hu⟩, -⟩⟩ := hc
  · exact hid b hb hsome heq
  · rw [hstay b hb hpk hs] at hu
    cases hu

theorem morningWritten_stay (settings : Settings) (read a : MorningPaymentAttempt) (answer : Answer)
    (recorded : String → Bool) (now : Time) : (morningWritten settings read answer recorded now a).stay = a.stay := by
  unfold morningWritten
  dsimp only
  split
  · split
    · rfl
    · split <;> rfl
  · rfl

theorem morningWritten_class (recorded : String → Bool) (now : Time) (h : morningClass settings read answer ≠ .success) :
    (morningWritten settings read answer recorded now a).status = statusOf (morningClass settings read answer) ∧
      (morningWritten settings read answer recorded now a).providerPaymentId = a.providerPaymentId := by
  unfold morningWritten
  dsimp only
  rw [if_neg h]
  exact ⟨rfl, rfl⟩

theorem morningWritten_success {recorded : String → Bool} {now : Time} (h : morningClass settings read answer = .success) :
    (morningWritten settings read answer recorded now a).status = .succeeded ∨
      (morningWritten settings read answer recorded now a).status = .review := by
  unfold morningWritten
  dsimp only
  rw [if_pos h]
  split
  · exact .inr rfl
  · split
    · exact .inr rfl
    · exact .inl (by rw [h]; rfl)

theorem morningWritten_newId {recorded : String → Bool} {id : String} (now : Time)
    (h : morningClass settings read answer = .success) (hid : id ∈ morningId answer.document) (hnew : recorded id = false) :
    (morningWritten settings read answer recorded now a).status = .succeeded ∧
      (morningWritten settings read answer recorded now a).providerPaymentId = some id := by
  unfold morningWritten
  dsimp only
  rw [if_pos h, Option.mem_def.1 hid]
  dsimp only
  rw [hnew, if_neg Bool.false_ne_true]
  exact ⟨by rw [h]; rfl, rfl⟩

theorem morningSaved_self {mornings : List MorningPaymentAttempt} (h : morningConflict mornings a = false) :
    morningSaved mornings a = some a := if_neg (by rw [h]; exact Bool.false_ne_true)

/-- A payment that has nothing beside it is saved as it is. -/
theorem morningSaved_alone {mornings : List MorningPaymentAttempt} {x : MorningPaymentAttempt} (hpk : x.pk = a.pk)
    (hstay : x.stay = a.stay)
    (hid : ∀ b ∈ mornings, x.providerPaymentId.isSome = true → b.providerPaymentId ≠ x.providerPaymentId)
    (halone : ∀ b ∈ mornings, b.pk ≠ a.pk → b.stay = a.stay → unresolved b.status = false) :
    morningSaved mornings x = some x :=
  morningSaved_self (noConflict_alone hid fun b hb hbk hbs => halone b hb (hpk ▸ hbk) (hbs.trans hstay))

/-- A payment that is saved although it conflicts is for review. -/
theorem morningSaved_status {mornings : List MorningPaymentAttempt} (h : morningSaved mornings a = some saved) :
    saved.status = a.status ∨ saved.status = .review := by
  unfold morningSaved at h
  split at h
  · dsimp only at h
    split at h
    · cases h
    · cases h
      exact .inr rfl
  · cases h
    exact .inl rfl

section Decides

variable {recorded : List String} {others : List MorningPaymentAttempt} {event : Uuid}

/-- No other attempt of the stay is undecided or has succeeded, whatever rows of other stays there are. -/
theorem Ledger.alone (h : Ledger w) (ha : a ∈ w.attempts) (hothers : ∀ b ∈ others, b.stay ≠ w.stay.pk)
    (hnone : ¬ ∃ b ∈ w.attempts, b.pk ≠ a.pk ∧ unresolved b.status = true) :
    ∀ b ∈ w.attempts ++ others, b.pk ≠ a.pk → b.stay = a.stay → unresolved b.status = false := by
  intro b hb hpk hstay
  rcases List.mem_append.1 hb with hb | hb
  · by_contra hu
    rw [Bool.not_eq_false] at hu
    exact hnone ⟨b, hb, hpk, hu⟩
  · exact absurd (hstay.trans (h.own a ha)) (hothers b hb)

/-- The attempt that has nothing beside it is saved, at least for review. -/
theorem Ledger.savedBy_isSome (h : Ledger w) (hw : w.writing i answer = some (settings, read, a))
    (hd : Decides w answer recorded others event settings read a)
    (hnone : ¬ ∃ b ∈ w.attempts, b.pk ≠ a.pk ∧ unresolved b.status = true) :
    ∃ saved, w.savedBy i answer recorded others = some (a, saved) := by
  have ha := Table.mem_of_get (World.writing_eq_some hw).2.1
  have halone := h.alone ha hd.2.1 hnone
  unfold World.savedBy
  rw [hw]
  dsimp only
  obtain ⟨hpk, -, -⟩ := morningWritten_keys settings read a answer (fun id => recorded.contains id) w.now
  have hstay := morningWritten_stay settings read a answer (fun id => recorded.contains id) w.now
  unfold morningSaved
  by_cases hc : morningConflict (w.attempts ++ others)
      (morningWritten settings read answer (fun id => recorded.contains id) w.now a) = true
  · rw [if_pos hc]
    dsimp only
    rw [if_neg]
    · exact ⟨_, rfl⟩
    · rw [Bool.not_eq_true]
      refine noConflict_alone (fun _ _ hs => by cases hs) fun b hb hbk hbs => halone b hb ?_ ?_
      · exact hpk ▸ hbk
      · exact hbs.trans hstay
  · rw [if_neg hc]
    exact ⟨_, rfl⟩

/-- While another attempt is undecided or has succeeded, nothing is saved. -/
theorem Ledger.savedBy_eq_none (h : Ledger w) (hw : w.writing i answer = some (settings, read, a))
    (hd : Decides w answer recorded others event settings read a)
    (hsome : ∃ b ∈ w.attempts, b.pk ≠ a.pk ∧ unresolved b.status = true) : w.savedBy i answer recorded others = none := by
  have hclass := hd.2.2
  rw [if_pos hsome] at hclass
  simp only [List.mem_cons, List.not_mem_nil, or_false, not_or] at hclass
  obtain ⟨hsuccess, hfailed, hcancelled⟩ := hclass
  cases hs : w.savedBy i answer recorded others with
  | none => rfl
  | some x =>
    obtain ⟨a', saved⟩ := x
    have hsaved := h.savedBy hs
    obtain ⟨settings', read', hw', hs'⟩ := World.savedBy_eq_some hs
    obtain ⟨rfl, rfl, rfl⟩ : settings = settings' ∧ read = read' ∧ a = a' := by simpa using hw.symm.trans hw'
    have hu : unresolved saved.status = true := by
      rcases morningSaved_status hs' with hstatus | hstatus
      · rw [hstatus, (morningWritten_class _ _ hsuccess).1]
        cases hc : morningClass settings read answer <;> simp_all [statusOf, unresolved]
      · rw [hstatus]
        rfl
    obtain ⟨b, hb, hne, hub⟩ := hsome
    rw [hsaved.single hu b hb hne] at hub
    cases hub

/-- A verification that decides leaves a closed stay closed. -/
theorem Closed.verified [DecidableEq F] {site : Site F} (hc : Closed w) (h : Ledger w)
    (hd : Deciding w (.verified i answer recorded others event)) :
    Closed (w.verified site i answer recorded others event) := by
  have hdone : Closed { w with checks := w.checks.eraseIdx i } := hc.of_eq rfl rfl
  rw [World.verified_eq]
  cases hs : w.savedBy i answer recorded others with
  | none => exact hdone
  | some x =>
    obtain ⟨a, saved⟩ := x
    have hsaved := h.savedBy hs
    suffices hw : Closed (w.write i a saved) by
      dsimp only
      rcases commit_cases site event { w with checks := w.checks.eraseIdx i } (w.write i a saved) with
        heq | heq | ⟨phone, -, heq⟩
      · rw [heq]
        exact hdone
      · rwa [heq]
      · rw [heq]
        exact hw.of_eq rfl rfl
    obtain ⟨settings, read, hwriting, hsaves⟩ := World.savedBy_eq_some hs
    have hdecides : Decides w answer recorded others event settings read a := hd _ hwriting
    have hnone : ¬ ∃ b ∈ w.attempts, b.pk ≠ a.pk ∧ unresolved b.status = true := by
      intro hsome
      rw [h.savedBy_eq_none hwriting hdecides hsome] at hs
      cases hs
    have halone := h.alone hsaved.mem hdecides.2.1 hnone
    have hkeys := morningWritten_keys settings read a answer (fun id => recorded.contains id) w.now
    have hstay := morningWritten_stay settings read a answer (fun id => recorded.contains id) w.now
    rcases hc with hc | ⟨-, b, hb, hbs⟩ | ⟨-, b, hb, hbs, hbid⟩
    · have hclass := hdecides.2.2
      rw [if_neg hnone] at hclass
      rcases hclass hc with hpending | ⟨hsuccess, id, hid, hnew, hother⟩
      · obtain ⟨hstatus, hpayment⟩ := morningWritten_class (a := a) (fun id => recorded.contains id) w.now
          (by rw [hpending]; exact nofun)
        rw [h.unpaid a hsaved.mem hsaved.status] at hpayment
        rw [morningSaved_alone hkeys.1 hstay (fun _ _ hsome => by rw [hpayment] at hsome; cases hsome) halone] at hsaves
        obtain rfl := Option.some.inj hsaves
        refine .inl ?_
        rw [hpending] at hstatus
        exact (congrArg MorningStay.status (morningStayAfter_pending hstatus)).trans hc
      · obtain ⟨hstatus, hpayment⟩ := morningWritten_newId (a := a) w.now hsuccess hid
          (show (fun id => recorded.contains id) id = false by simpa using hnew)
        rw [morningSaved_alone hkeys.1 hstay (fun b hb _ => by rw [hpayment]; exact hother b hb) halone] at hsaves
        obtain rfl := Option.some.inj hsaves
        exact .inr (.inl ⟨morningStayAfter_succeeded hstatus, _, Table.mem_modify.2 ⟨a, hsaved.mem, rfl⟩,
          by rw [if_pos rfl]; exact hstatus⟩)
    · refine absurd ⟨b, hb, ?_, by rw [hbs]; rfl⟩ hnone
      intro hk
      rw [h.paying.unique hb hsaved.mem hk] at hbs
      exact hsaved.status hbs
    · refine absurd ⟨b, hb, ?_, by rw [hbs]; rfl⟩ hnone
      intro hk
      rw [h.paying.unique hb hsaved.mem hk] at hbid
      exact hsaved.checkoutId hbid

end Decides

end Verified

/-! ### Runs -/

theorem Ledger.withStatus {status : MorningStayStatus} (h : Ledger w) (hs : status ≠ .paid) :
    Ledger (w.withStatus status) :=
  ⟨⟨h.paying.attempts, h.paying.checkouts, h.paying.created, h.paying.checked⟩, h.own, h.single, h.stages, h.unpaid,
    fun hp => absurd hp hs⟩

section Step

variable [DecidableEq F] {site : Site F}

/-- What a step comes to, if a verification decides. -/
theorem Ledger.step (h : Ledger w) {a : Action} (hd : Deciding w a) : Advances w (w.step site a) := by
  have hsave : ∀ {w' : World F} {event : Uuid}, w'.stay.pk = w.stay.pk → w'.stay.status = w.stay.status →
      w'.attempts = w.attempts → w'.checkouts = w.checkouts → w'.checks = w.checks →
      Advances w (World.commit site event w w') := fun hpk hs ha hco hch =>
    .commit h (h.advances hpk hs ha hco (by rw [hch]; exact h.paying.checked))
  cases a with
  | tick seconds => exact h.advances rfl rfl rfl rfl h.paying.checked
  | listed property listing => exact h.advances rfl rfl rfl rfl h.paying.checked
  | claimCheckout attempt merchant available event => exact h.claimCheckout
  | checkoutReply i reply => exact h.checkoutReply
  | checkoutUnknown i => exact h.checkoutUnknown
  | checkoutReview i => exact h.checkoutReview
  | verify settings attempt => exact h.verify
  | verified i answer recorded others event => exact ⟨h.verified, fun hc => hc.verified h hd⟩
  | change asked event =>
    unfold World.step World.change
    dsimp only
    split
    · exact .refl h
    split
    · exact .refl h
    · exact hsave rfl rfl rfl rfl rfl
  | cancel event =>
    unfold World.step World.cancel
    dsimp only
    split
    · exact .refl h
    · exact .commit h ⟨h.withStatus nofun, fun _ => .inl rfl⟩
  | resend available event =>
    unfold World.step World.resend
    dsimp only
    split
    · exact .refl h
    rename_i hunpaid
    refine .commit h ⟨h.withStatus nofun, fun hc => ?_⟩
    simp only [not_or, Bool.not_eq_true, Bool.not_eq_false', World.unpaid, Bool.and_eq_true, Bool.or_eq_true,
      beq_iff_eq] at hunpaid
    rcases hc.status with hs | hs | hs <;> simp [hs] at hunpaid
  | billing event =>
    unfold World.step World.billing
    dsimp only
    split
    · exact .refl h
    · exact hsave rfl rfl rfl rfl rfl
  | claimEvent skipped =>
    unfold World.step World.claimEvent
    dsimp only
    split
    · exact .refl h
    · split <;> exact h.advances rfl rfl rfl rfl h.paying.checked
  | answered i reply =>
    unfold World.step World.answered
    dsimp only
    split
    · exact .refl h
    · exact h.advances rfl rfl rfl rfl h.paying.checked
  | read event authorised =>
    unfold World.step World.read
    dsimp only
    split
    · exact h.advances rfl rfl rfl rfl h.paying.checked
    · exact .refl h
  | checkAdmission i =>
    unfold World.step World.checkAdmission
    dsimp only
    split
    · exact .refl h
    · split <;> exact h.advances rfl rfl rfl rfl h.paying.checked
  | payload i =>
    unfold World.step World.payload
    dsimp only
    split
    · exact .refl h
    split
    · split <;> exact h.advances rfl rfl rfl rfl h.paying.checked
    · exact .refl h

/-- A success that the provider confirms is recorded with its attempt. -/
def Recorded (w w' : World F) : Action → Prop
  | .verified i answer _ _ _ => ∀ x ∈ w.writing i answer, morningClass x.1 x.2.1 answer = .success →
      ∃ b ∈ w'.attempts, b.pk = x.2.2.pk ∧ (b.status = .succeeded ∨ b.status = .review) ∧ b.verifiedAt = some w.now
  | _ => True

/-- The result of an attempt that had failed or was cancelled leaves the stay alone while another one is undecided or has
succeeded. -/
def LeavesAlone (w w' : World F) : Action → Prop
  | .verified i answer _ _ _ => ∀ x ∈ w.writing i answer, (x.2.2.status = .failed ∨ x.2.2.status = .cancelled) →
      (∃ b ∈ w.attempts, b.pk ≠ x.2.2.pk ∧ unresolved b.status = true) → w'.stay = w.stay
  | _ => True

theorem Ledger.recorded (h : Ledger w) {a : Action} (hd : Deciding w a) : Recorded w (w.step site a) a := by
  cases a with
  | verified i answer recorded others event =>
    rintro ⟨settings, read, a⟩ hw hclass
    have hdecides : Decides w answer recorded others event settings read a := hd _ hw
    have hnone : ¬ ∃ b ∈ w.attempts, b.pk ≠ a.pk ∧ unresolved b.status = true := by
      intro hsome
      have hno := hdecides.2.2
      rw [if_pos hsome] at hno
      exact hno (by simp [show morningClass settings read answer = .success from hclass])
    obtain ⟨saved, hs⟩ := h.savedBy_isSome hw hdecides hnone
    have hsaved := h.savedBy hs
    obtain ⟨settings', read', hw', hs'⟩ := World.savedBy_eq_some hs
    obtain ⟨rfl, rfl⟩ : settings = settings' ∧ read = read' := by simpa using hw.symm.trans hw'
    have hmem : saved ∈ (w.write i a saved).attempts := Table.mem_modify.2 ⟨a, hsaved.mem, if_pos rfl⟩
    refine ⟨saved, ?_, hsaved.pk, ?_, hsaved.verifiedAt⟩
    · have heq := World.verified_eq site w i answer recorded others event
      rw [hs] at heq
      show saved ∈ (w.verified site i answer recorded others event).attempts
      rw [heq]
      dsimp only [World.commit]
      rw [if_neg hdecides.1]
      exact hmem
    · rcases morningSaved_status hs' with hstatus | hstatus
      · rw [hstatus]
        exact morningWritten_success hclass
      · exact .inr hstatus
  | _ => trivial

theorem Ledger.leavesAlone (h : Ledger w) {a : Action} (hd : Deciding w a) : LeavesAlone w (w.step site a) a := by
  cases a with
  | verified i answer recorded others event =>
    rintro ⟨settings, read, a⟩ hw - hsome
    have heq := World.verified_eq site w i answer recorded others event
    rw [h.savedBy_eq_none hw (hd _ hw) hsome] at heq
    show (w.verified site i answer recorded others event).stay = w.stay
    rw [heq]
  | _ => trivial

/-- A stay that has just been saved: nothing has been paid. -/
structure Unpaid (w : World F) : Prop where
  status : w.stay.status = .opened
  attempts : w.attempts = []
  checkouts : w.checkouts = []
  checks : w.checks = []

omit [DecidableEq F] in
theorem Unpaid.ledger (h : Unpaid w) : Ledger w := by
  refine ⟨⟨?_, ?_, ?_, ?_⟩, ?_, ?_, ?_, ?_, ?_⟩ <;> simp [h.status, h.attempts, h.checkouts, h.checks]

abbrev afterSteps (site : Site F) (w : World F) (as : List Action) (n : ℕ) : World F :=
  Machine.run (World.step site) w (as.take n)

/-- The payment of a stay goes forward in every run whose verifications decide: what was paid or cancelled is never open
again, one attempt at most has succeeded, a confirmed success is recorded, and the result of an older attempt leaves the
stay alone. -/
theorem payment_goes_forward (h : Unpaid w) {as : List Action}
    (hd : Machine.Meets (World.step site) Deciding w as) :
    (∀ n k, n ≤ k →
      (afterSteps site w as n).stay.status = .paid ∨ (afterSteps site w as n).stay.status = .cancelled →
        (afterSteps site w as k).stay.status ≠ .opened) ∧
      (∀ n, ∀ a ∈ (afterSteps site w as n).attempts, ∀ b ∈ (afterSteps site w as n).attempts,
        a.status = .succeeded → b.status = .succeeded → a = b) ∧
      ∀ n a, as[n]? = some a →
        Recorded (afterSteps site w as n) (afterSteps site w as (n + 1)) a ∧
          LeavesAlone (afterSteps site w as n) (afterSteps site w as (n + 1)) a := by
  have hledger : ∀ n, Ledger (afterSteps site w as n) := fun n =>
    (hd.take n).inv (fun _ _ hl hok => (hl.step hok).ledger) h.ledger
  refine ⟨fun n k hnk hs => ?_, fun n a ha b hb hsa hsb => ?_, fun n a hget => ?_⟩
  · have hclosed : Closed (afterSteps site w as k) := by
      obtain ⟨j, rfl⟩ := Nat.exists_eq_add_of_le hnk
      rw [afterSteps, List.take_add, Machine.run_append]
      refine (Machine.Meets.inv (I := fun w => Ledger w ∧ Closed w) (fun w a hw hok => ?_) ((hd.drop n).take j)
        ⟨hledger n, (hledger n).closed hs⟩).2
      exact ⟨(hw.1.step hok).ledger, (hw.1.step hok).closed hw.2⟩
    rcases hclosed.status with hk | hk | hk <;> simp [hk]
  · exact (hledger n).single a ha b hb (by rw [hsa]; rfl) (by rw [hsb]; rfl)
  · have hok := Machine.meets_iff_getElem?.1 hd n a hget
    have hnext : afterSteps site w as (n + 1) = World.step site (afterSteps site w as n) a := by
      rw [afterSteps, List.take_add_one, hget, Machine.run_append]
      rfl
    rw [hnext]
    exact ⟨(hledger n).recorded hok, (hledger n).leavesAlone hok⟩

end Step

/-! ### An attempt that is verified again -/

section Again

open Bridge

def secondAttempt : Uuid := ⟨"07000000-0000-4000-8000-000000000005", rfl⟩

def answerOf (merchantTransactionId code : String) : Answer :=
  ⟨{ answerDocument code with merchantTransactionId := .text merchantTransactionId }, false, false⟩

/-- The first card is refused and the second one is charged. -/
def refusedThenPaid : List Action :=
  [.claimCheckout attemptPk "AM-1" true firstEvent, .checkoutReply 0 (.valid "checkout-1"), .verify liveSettings attemptPk,
    .verified 0 (answerOf "AM-1" "800.100.152") [] [] firstEvent, .claimCheckout secondAttempt "AM-2" true firstEvent,
    .checkoutReply 0 (.valid "checkout-2"), .verify liveSettings secondAttempt,
    .verified 0 (answerOf "AM-2" "000.000.000") [] [] firstEvent]

/-- Then the refusal of the first one is read again. -/
def refusedAgain : List Action :=
  refusedThenPaid ++ [.verify liveSettings attemptPk, .verified 0 (answerOf "AM-1" "800.100.152") [] [] secondEvent]

/-- The first payment is read as a success while the second one is being made. -/
def paidTwice : List Action :=
  refusedThenPaid.take 6 ++ [.verify liveSettings attemptPk, .verified 0 (answerOf "AM-1" "000.000.000") [] [] firstEvent]

theorem openBridge_unpaid : Unpaid openBridge.world := ⟨rfl, rfl, rfl, rfl⟩

theorem payment_goes_forward_refused :
    (afterSteps plainSite openBridge.world refusedThenPaid 8).stay.status = .paid ∧
      ∀ k, 8 ≤ k → (afterSteps plainSite openBridge.world refusedThenPaid k).stay.status ≠ .opened := by
  have hpaid : (afterSteps plainSite openBridge.world refusedThenPaid 8).stay.status = .paid := by decide +kernel
  exact ⟨hpaid, fun k hk => (payment_goes_forward openBridge_unpaid (by decide +kernel)).1 8 k hk (.inl hpaid)⟩

/-- A paid stay is open again, and a confirmed success is not recorded. -/
theorem refused_again_opens :
    (afterSteps plainSite openBridge.world refusedAgain 8).stay.status = .paid ∧
      (afterSteps plainSite openBridge.world refusedAgain 10).stay.status = .opened ∧
      (afterSteps plainSite openBridge.world paidTwice 8).attempts.map (·.status) = [.failed, .pending] := by
  refine ⟨?_, ?_, ?_⟩ <;> decide +kernel

end Again

end Apartments.Morning
