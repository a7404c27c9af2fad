import Apartments.Accounts.PhoneAuth
import Mathlib.Data.List.Nodup
import Mathlib.Data.List.Pairwise

/-!
# Phone identity is one-to-one

Only `consume` and `update_identity` write bindings, each under the lock of identities, and what they write is apart from
what is there (`OneToOne`). A challenge that is not open is never consumed, so what an identity change closes stays
closed; a binding that it replaces is replaced by a later version.
-/

namespace Apartments.PhoneAuth

variable {normalize : String → Option String} {digest : ℕ → String → String} {w w' : World}

/-! ### What a step does to the challenges -/

/-- The challenge is the same one, and what is over for it stays over. -/
structure PhoneChallenge.Follows (c c' : PhoneChallenge) : Prop where
  user : c'.user = c.user
  phone : c'.phone = c.phone
  purpose : c'.purpose = c.purpose
  version : c'.bindingVersion = c.bindingVersion
  session : c'.session = c.session
  created : c'.createdAt = c.createdAt
  expires : c'.expiresAt = c.expiresAt
  closed : c.status.isOpen = false → c'.status = c.status

namespace PhoneChallenge

variable {c c' : PhoneChallenge}

theorem Follows.refl (c : PhoneChallenge) : c.Follows c := ⟨rfl, rfl, rfl, rfl, rfl, rfl, rfl, fun _ => rfl⟩

theorem Follows.of_open (hopen : c.status.isOpen = true) (hc : c' = { c with
    status := c'.status, attempts := c'.attempts, codeDigest := c'.codeDigest }) : c.Follows c' := by
  rw [hc]
  exact ⟨rfl, rfl, rfl, rfl, rfl, rfl, rfl, fun h => by simp [hopen] at h⟩

theorem follows_miss (hopen : c.status.isOpen = true) : c.Follows c.miss := by
  refine .of_open hopen ?_
  unfold miss
  split_ifs <;> rfl

end PhoneChallenge

/-- Every challenge is still there. -/
def World.Follows (w w' : World) : Prop :=
  ∀ (k : ℕ) c, w.challenges[k]? = some c → ∃ c', w'.challenges[k]? = some c' ∧ c.Follows c'

namespace World.Follows

theorem of_challenges (h : w'.challenges = w.challenges) : w.Follows w' :=
  fun _ c hc => ⟨c, h ▸ hc, .refl c⟩

theorem set {key : ℕ} {c c' : PhoneChallenge} (hc : w.challenges[key]? = some c)
    (h : w'.challenges = w.challenges.set key c') (hfollows : c.Follows c') : w.Follows w' := by
  intro k d hd
  by_cases hk : key = k
  · subst hk
    obtain rfl := Option.some.inj (hc.symm.trans hd)
    have hlt := (List.getElem?_eq_some_iff.1 hc).1
    exact ⟨c', by simp [h, hlt], hfollows⟩
  · exact ⟨d, by rwa [h, List.getElem?_set_ne hk], .refl d⟩

theorem append {c : PhoneChallenge} (h : w'.challenges = w.challenges ++ [c]) : w.Follows w' := by
  intro k d hd
  have hk := (List.getElem?_eq_some_iff.1 hd).1
  exact ⟨d, by rwa [h, List.getElem?_append_left hk], .refl d⟩

theorem trans {u v : World} (h : w.Follows u) (h' : u.Follows v) : w.Follows v := by
  intro k c hc
  obtain ⟨d, hd, hcd⟩ := h k c hc
  obtain ⟨e, he, hde⟩ := h' k d hd
  refine ⟨e, he, hde.user.trans hcd.user, hde.phone.trans hcd.phone, hde.purpose.trans hcd.purpose,
    hde.version.trans hcd.version, hde.session.trans hcd.session, hde.created.trans hcd.created,
    hde.expires.trans hcd.expires, fun hclosed => ?_⟩
  have hstatus := hcd.closed hclosed
  exact (hde.closed (hstatus ▸ hclosed)).trans hstatus

theorem updateIf (w : World) (key : ℕ) {status : ChallengeStatus} (hopen : status.isOpen = true)
    {f : PhoneChallenge → PhoneChallenge}
    (hf : ∀ c, f c = { c with status := (f c).status, attempts := (f c).attempts, codeDigest := (f c).codeDigest }) :
    w.Follows (w.updateIf key status f) := by
  unfold World.updateIf
  split
  · rename_i c hc
    split_ifs with hs
    · exact set hc rfl (.of_open (hs ▸ hopen) (hf c))
    · exact of_challenges rfl
  · exact of_challenges rfl

theorem supersedePrevious (w : World) (session : ℕ) : w.Follows (w.supersedePrevious session) := by
  unfold World.supersedePrevious
  split
  · exact of_challenges rfl
  split
  · exact of_challenges rfl
  rename_i c hc
  split_ifs with h
  · exact set hc rfl (.of_open h.2 rfl)
  · exact of_challenges rfl

end World.Follows

@[simp] theorem World.supersedePrevious_length (w : World) (session : ℕ) :
    (w.supersedePrevious session).challenges.length = w.challenges.length := by
  unfold World.supersedePrevious
  split
  · rfl
  split
  · rfl
  split_ifs <;> simp [World.write]

@[simp] theorem World.updateIf_length (w : World) (key : ℕ) (status : ChallengeStatus)
    (f : PhoneChallenge → PhoneChallenge) : (w.updateIf key status f).challenges.length = w.challenges.length := by
  unfold World.updateIf
  split
  · split_ifs <;> simp [World.write]
  · rfl

theorem World.updateIf_calls (w : World) (key : ℕ) (status : ChallengeStatus)
    (f : PhoneChallenge → PhoneChallenge) : (w.updateIf key status f).calls = w.calls := by
  unfold World.updateIf
  split
  · split_ifs <;> rfl
  · rfl

theorem World.supersedePrevious_calls (w : World) (session : ℕ) : (w.supersedePrevious session).calls = w.calls := by
  unfold World.supersedePrevious
  split
  · rfl
  split
  · rfl
  split_ifs <;> rfl

theorem World.updateIdentity_calls (w : World) (x : IdentityChange) : (w.updateIdentity x).calls = w.calls := by
  unfold World.updateIdentity
  split_ifs <;> rfl

/-! ### What a step does to the bindings -/

/-- The bindings and the log are left alone. -/
structure World.SameBindings (w w' : World) : Prop where
  verified : w'.verified = w.verified
  approved : w'.approved = w.approved
  versions : w'.versions = w.versions
  consumptions : w'.consumptions = w.consumptions

theorem World.SameBindings.refl (w : World) : w.SameBindings w := ⟨rfl, rfl, rfl, rfl⟩

theorem World.sameBindings_updateIf (w : World) (key : ℕ) (status : ChallengeStatus)
    (f : PhoneChallenge → PhoneChallenge) : w.SameBindings (w.updateIf key status f) := by
  unfold World.updateIf
  split
  · split_ifs <;> exact ⟨rfl, rfl, rfl, rfl⟩
  · exact .refl w

theorem World.sameBindings_supersedePrevious (w : World) (session : ℕ) :
    w.SameBindings (w.supersedePrevious session) := by
  unfold World.supersedePrevious
  split
  · exact .refl w
  split
  · exact .refl w
  split_ifs <;> exact ⟨rfl, rfl, rfl, rfl⟩

/-- Nobody has the number, or another number for the user, among the bindings. -/
def Free (bindings : List Binding) (user : ℕ) (phone : String) : Prop :=
  ∀ b ∈ bindings, b.user ≠ user ∧ b.phone ≠ phone

theorem free_iff_any (bindings : List Binding) (user : ℕ) (phone : String) :
    Free bindings user phone ↔ (bindings.any fun b => b.user == user || b.phone == phone) = false := by
  simp [Free]

theorem accept_calls {request : Request} {c : PhoneChallenge} {user : ℕ} {v : World}
    (h : w.accept normalize request c user = some v) : v.calls = w.calls := by
  have hverify : ∀ {v : World}, w.verify user c.phone = some v → v.calls = w.calls := by
    intro v hv
    unfold World.verify at hv
    split_ifs at hv
    obtain rfl := Option.some.inj hv
    rfl
  unfold World.accept at h
  split at h
  · split_ifs at h
    obtain ⟨v', hv', rfl⟩ := Option.map_eq_some_iff.1 h
    have hcalls := hverify hv'
    exact hcalls
  · split_ifs at h
    split at h
    · obtain rfl := Option.some.inj h
      rfl
    · obtain ⟨v', hv', rfl⟩ := Option.map_eq_some_iff.1 h
      have hcalls := hverify hv'
      exact hcalls

theorem World.consume_calls (w : World) (request : Request) (submitted : String) (limited : Bool) :
    (w.consume normalize digest request submitted limited).calls = w.calls := by
  unfold World.consume
  split
  · rfl
  split
  · rfl
  split
  · rfl
  split_ifs
  · rfl
  · rfl
  · split
    · rfl
    · rename_i v hv
      have hcalls := accept_calls hv
      exact hcalls

/-- What `consume` does to the bindings: a proved number is added, an approved one is proved, or a login leaves them. -/
inductive Accepted (w w' : World) (c : PhoneChallenge) (user : ℕ) : Prop
  | bound (purpose : c.purpose = .bind) (verified : w'.verified = w.verified ++ [⟨user, c.phone, w.versions⟩])
      (approved : w'.approved = w.approved) (versions : w'.versions = w.versions + 1)
      (free : Free w.verified user c.phone) (free' : Free w.approved user c.phone)
  | proved (b : Binding) (mem : b ∈ w.approved) (current : World.isBindingOf c b = true)
      (verified : w'.verified = w.verified ++ [⟨user, c.phone, w.versions⟩])
      (approved : w'.approved = w.approved.filter (· ≠ b)) (versions : w'.versions = w.versions + 1)
      (free : Free w.verified user c.phone)
  | signed (b : Binding) (mem : b ∈ w.verified ++ w.approved) (current : World.isBindingOf c b = true)
      (verified : w'.verified = w.verified) (approved : w'.approved = w.approved) (versions : w'.versions = w.versions)

theorem verify_eq_some {user : ℕ} {phone : String} {v : World} (h : w.verify user phone = some v) :
    Free w.verified user phone ∧
      v = { w with verified := w.verified ++ [⟨user, phone, w.versions⟩], versions := w.versions + 1 } := by
  unfold World.verify at h
  split_ifs at h with hany
  exact ⟨(free_iff_any ..).2 (by simpa using hany), (Option.some.inj h).symm⟩

theorem accept_eq_some {request : Request} {c : PhoneChallenge} {user : ℕ} {v : World}
    (h : w.accept normalize request c user = some v) :
    Accepted w v c user ∧ v.challenges = w.challenges ∧ v.consumptions = w.consumptions ∧ v.now = w.now := by
  unfold World.accept at h
  split at h
  · rename_i hpurpose
    split_ifs at h with hchecks
    obtain ⟨v', hv', rfl⟩ := Option.map_eq_some_iff.1 h
    obtain ⟨hfree, rfl⟩ := verify_eq_some hv'
    refine ⟨.bound hpurpose rfl rfl rfl hfree ?_, rfl, rfl, rfl⟩
    have hcan := hchecks.2.2
    unfold World.canBindPhone at hcan
    split_ifs at hcan with hany
    exact (free_iff_any ..).2 (by simpa using hany)
  · split_ifs at h with hchecks
    have hcurrent : w.currentBinding c = true := by
      by_contra hc
      exact hchecks (.inr hc)
    split at h
    · obtain rfl := Option.some.inj h
      simp only [World.currentBinding, Bool.or_eq_true, List.any_eq_true] at hcurrent
      rcases hcurrent with ⟨b, hb, hbc⟩ | ⟨b, hb, hbc⟩
      · exact ⟨.signed b (List.mem_append_left _ hb) hbc rfl rfl rfl, rfl, rfl, rfl⟩
      · exact ⟨.signed b (List.mem_append_right _ hb) hbc rfl rfl rfl, rfl, rfl, rfl⟩
    · rename_i b hb
      obtain ⟨v', hv', rfl⟩ := Option.map_eq_some_iff.1 h
      obtain ⟨hfree, rfl⟩ := verify_eq_some hv'
      exact ⟨.proved b (List.mem_of_find?_eq_some hb) (List.find?_some hb) rfl rfl rfl hfree, rfl, rfl, rfl⟩

/-- A consumption: the challenge was sent and is right, and `v` is the world with the bindings it leaves. -/
structure Consumes (w w' : World) (request : Request) (key : ℕ) (c : PhoneChallenge) (user : ℕ) (v : World) :
    Prop where
  challenge : w.challenges[key]? = some c
  owner : c.user = some user
  status : c.status = .sent
  inTime : w.now < c.expiresAt
  attempts : c.attempts < 5
  session : c.session = request.session
  accepted : Accepted w v c user
  challenges : v.challenges = w.challenges
  consumptions : v.consumptions = w.consumptions
  now : v.now = w.now
  result : w' = v.consumed request key c user

variable (normalize digest) in
theorem consume_cases (w : World) (request : Request) (submitted : String) (limited : Bool) :
    (w.SameBindings (w.consume normalize digest request submitted limited) ∧
        w.Follows (w.consume normalize digest request submitted limited)) ∨
      ∃ key c user v, Consumes w (w.consume normalize digest request submitted limited) request key c user v := by
  unfold World.consume
  split
  · exact .inl ⟨.refl w, .of_challenges rfl⟩
  split
  · exact .inl ⟨.refl w, .of_challenges rfl⟩
  rename_i key _ _ c hc
  split
  · exact .inl ⟨.refl w, .of_challenges rfl⟩
  rename_i user huser
  split_ifs with hguard hcode
  · exact .inl ⟨.refl w, .of_challenges rfl⟩
  · refine .inl ⟨⟨rfl, rfl, rfl, rfl⟩, .set hc rfl (PhoneChallenge.follows_miss ?_)⟩
    have hsent : c.status = .sent := by
      by_contra hne
      exact hguard (by simp [hne])
    simp [ChallengeStatus.isOpen, hsent]
  · split
    · exact .inl ⟨.refl w, .of_challenges rfl⟩
    · rename_i v hv
      obtain ⟨haccepted, hchallenges, hconsumptions, hnow⟩ := accept_eq_some hv
      simp only [Bool.or_eq_true, bne_iff_ne, decide_eq_true_eq, not_or, not_not, not_le] at hguard
      obtain ⟨⟨⟨⟨⟨_, hstatus⟩, htime⟩, hattempts⟩, hsession⟩, _⟩ := hguard
      exact .inr ⟨key, c, user, v, hc, huser, hstatus, htime, hattempts, hsession, haccepted, hchallenges,
        hconsumptions, hnow, rfl⟩

/-- The number of a user is replaced by `update_identity`. -/
structure Replaces (w w' : World) (x : IdentityChange) : Prop where
  admitted : w.admits x = true
  changed : w.currentPhone x.user ≠ x.phone
  verified : w'.verified = w.verified.filter (·.user != x.user)
  approved : w'.approved = w.approved.filter (·.user != x.user) ++ [⟨x.user, x.phone, w.versions⟩]
  versions : w'.versions = w.versions + 1
  consumptions : w'.consumptions = w.consumptions

theorem updateIdentity_cases (w : World) (x : IdentityChange) :
    w.SameBindings (w.updateIdentity x) ∨ Replaces w (w.updateIdentity x) x := by
  unfold World.updateIdentity
  split_ifs with hadmits hphone
  · exact .inr ⟨hadmits, hphone, rfl, rfl, rfl, rfl⟩
  · exact .inl ⟨rfl, rfl, rfl, rfl⟩
  · exact .inl (.refl w)

theorem updateIdentity_challenges (w : World) (x : IdentityChange) (h : w.admits x = true) :
    (w.updateIdentity x).challenges =
      w.challenges.map fun c => if c.user = some x.user ∧ c.status.isOpen then c.supersede else c := by
  unfold World.updateIdentity
  rw [if_pos h]
  split_ifs <;> rfl

variable (normalize digest) in
theorem step_follows (w : World) (a : Action) : w.Follows (step normalize digest w a) := by
  cases a with
  | wait | configure | account | rotate | crash => exact .of_challenges rfl
  | begin i request phone purpose =>
    unfold step
    dsimp only
    split_ifs <;> exact .of_challenges rfl
  | check i limited =>
    unfold step
    dsimp only
    split
    · split
      · split <;> exact .of_challenges rfl
      · exact .of_challenges rfl
    · exact .of_challenges rfl
  | store i =>
    unfold step
    dsimp only
    split
    · split
      · exact (World.Follows.supersedePrevious w _).trans (.append rfl)
      · exact .of_challenges rfl
    · exact .of_challenges rfl
  | dispatchFails key => exact .updateIf w key rfl fun _ => rfl
  | deliver key code =>
    unfold step
    dsimp only
    split
    · rename_i c hc
      split_ifs with hd
      · have hfollows : c.Follows (c.claim (digest key code)) := by
          refine .of_open ?_ rfl
          simp only [World.deliverable, Bool.and_eq_true, beq_iff_eq] at hd
          simp [ChallengeStatus.isOpen, hd.1.1.1.2]
        exact .set hc rfl hfollows
      · exact .of_challenges rfl
    · exact .of_challenges rfl
  | submit key =>
    unfold step
    dsimp only
    split_ifs <;> exact .of_challenges rfl
  | accepted key =>
    unfold step
    dsimp only
    split_ifs
    · exact (World.Follows.updateIf w key rfl fun _ => rfl).trans (.of_challenges rfl)
    · exact .of_challenges rfl
  | raise key =>
    unfold step
    dsimp only
    split_ifs
    · exact (World.Follows.updateIf w key rfl fun _ => rfl).trans (.of_challenges rfl)
    · exact .of_challenges rfl
  | consume request submitted limited =>
    rcases consume_cases normalize digest w request submitted limited with
      ⟨_, h⟩ | ⟨key, c, user, v, h⟩
    · exact h
    · unfold step
      dsimp only
      rw [h.result]
      have hset : (v.consumed request key c user).challenges = w.challenges.set key c.use := by
        rw [← h.challenges]
        rfl
      refine .set h.challenge hset (.of_open ?_ rfl)
      simp [ChallengeStatus.isOpen, h.status]
  | update x =>
    by_cases hadmits : w.admits x = true
    · intro k c hc
      refine ⟨_, by rw [step, updateIdentity_challenges w x hadmits, List.getElem?_map, hc]; rfl, ?_⟩
      dsimp only
      split_ifs with h
      · exact .of_open h.2 rfl
      · exact .refl c
    · unfold step World.updateIdentity
      dsimp only
      rw [if_neg hadmits]
      exact .of_challenges rfl

variable (normalize digest) in
/-- Only the transaction of `begin` adds a challenge. -/
theorem step_new (w : World) (a : Action) :
    (step normalize digest w a).challenges.length = w.challenges.length ∨
      ∃ (v : World) (call : Begin) (user version : Option ℕ), v.challenges.length = w.challenges.length ∧
        (step normalize digest w a).challenges = v.challenges ++ [w.newChallenge call user version] := by
  cases a with
  | wait | configure | account | rotate | crash => exact .inl rfl
  | begin i request phone purpose =>
    unfold step
    dsimp only
    split_ifs <;> exact .inl rfl
  | check i limited =>
    unfold step
    dsimp only
    split
    · split
      · split <;> exact .inl rfl
      · exact .inl rfl
    · exact .inl rfl
  | store i =>
    unfold step
    dsimp only
    split
    · rename_i call _
      split
      · rename_i user version _
        exact .inr ⟨_, call, user, version, World.supersedePrevious_length w call.request.session, rfl⟩
      · exact .inl rfl
    · exact .inl rfl
  | dispatchFails key => exact .inl (World.updateIf_length ..)
  | deliver key code =>
    unfold step
    dsimp only
    split
    · split_ifs
      · exact .inl (List.length_set ..)
      · exact .inl rfl
    · exact .inl rfl
  | submit key =>
    unfold step
    dsimp only
    split_ifs <;> exact .inl rfl
  | accepted key =>
    unfold step
    dsimp only
    split_ifs
    · exact .inl (World.updateIf_length ..)
    · exact .inl rfl
  | raise key =>
    unfold step
    dsimp only
    split_ifs
    · exact .inl (World.updateIf_length ..)
    · exact .inl rfl
  | consume request submitted limited =>
    refine .inl ?_
    unfold step World.consume
    dsimp only
    split
    · rfl
    split
    · rfl
    split
    · rfl
    split_ifs
    · rfl
    · exact List.length_set ..
    · split
      · rfl
      · rename_i v hv
        have hchallenges := (accept_eq_some hv).2.1
        exact (List.length_set ..).trans (congrArg List.length hchallenges)
  | update x =>
    by_cases hadmits : w.admits x = true
    · exact .inl (by rw [step, updateIdentity_challenges w x hadmits, List.length_map])
    · unfold step World.updateIdentity
      dsimp only
      rw [if_neg hadmits]
      exact .inl rfl

variable (normalize digest) in
/-- What a step does to the bindings and to the log. -/
theorem step_cases (w : World) (a : Action) :
    w.SameBindings (step normalize digest w a) ∨
      (∃ request key c user v, Consumes w (step normalize digest w a) request key c user v) ∨
      ∃ x, a = .update x ∧ Replaces w (step normalize digest w a) x := by
  cases a with
  | wait | configure | account | rotate | crash => exact .inl ⟨rfl, rfl, rfl, rfl⟩
  | begin i request phone purpose =>
    unfold step
    dsimp only
    split_ifs <;> exact .inl ⟨rfl, rfl, rfl, rfl⟩
  | check i limited =>
    unfold step
    dsimp only
    split
    · split
      · split <;> exact .inl ⟨rfl, rfl, rfl, rfl⟩
      · exact .inl (.refl w)
    · exact .inl (.refl w)
  | store i =>
    unfold step
    dsimp only
    split
    · split
      · have h := World.sameBindings_supersedePrevious w (Begin.request ‹_›).session
        exact .inl ⟨h.verified, h.approved, h.versions, h.consumptions⟩
      · exact .inl (.refl w)
    · exact .inl (.refl w)
  | dispatchFails key => exact .inl (World.sameBindings_updateIf ..)
  | deliver key code =>
    unfold step
    dsimp only
    split
    · split_ifs <;> exact .inl ⟨rfl, rfl, rfl, rfl⟩
    · exact .inl (.refl w)
  | submit key =>
    unfold step
    dsimp only
    split_ifs <;> exact .inl ⟨rfl, rfl, rfl, rfl⟩
  | accepted key =>
    unfold step
    dsimp only
    split_ifs
    · have h := World.sameBindings_updateIf w key .sending fun c => { c with status := .sent }
      exact .inl ⟨h.verified, h.approved, h.versions, h.consumptions⟩
    · exact .inl (.refl w)
  | raise key =>
    unfold step
    dsimp only
    split_ifs
    · have h := World.sameBindings_updateIf w key .sending PhoneChallenge.fail
      exact .inl ⟨h.verified, h.approved, h.versions, h.consumptions⟩
    · exact .inl (.refl w)
  | consume request submitted limited =>
    rcases consume_cases normalize digest w request submitted limited with ⟨h, _⟩ | h
    · exact .inl h
    · exact .inr (.inl ⟨request, h⟩)
  | update x =>
    rcases updateIdentity_cases w x with h | h
    · exact .inl h
    · exact .inr (.inr ⟨x, rfl, h⟩)

/-! ### One-to-one -/

/-- Of different users, with different numbers. -/
def Binding.Apart (a b : Binding) : Prop := a.user ≠ b.user ∧ a.phone ≠ b.phone

instance : Std.Symm Binding.Apart := ⟨fun _ _ h => ⟨h.1.symm, h.2.symm⟩⟩

/-- No user and no number stands twice among the bindings, verified or approved. -/
structure OneToOne (verified approved : List Binding) : Prop where
  verifiedOnce : verified.Pairwise Binding.Apart
  approvedOnce : approved.Pairwise Binding.Apart
  apart : ∀ v ∈ verified, ∀ a ∈ approved, v.Apart a

namespace OneToOne

variable {verified approved : List Binding} {user version : ℕ} {phone : String}

theorem pairwise_append {l : List Binding} (h : l.Pairwise Binding.Apart) (hfree : Free l user phone) :
    List.Pairwise Binding.Apart (l ++ [⟨user, phone, version⟩]) := by
  refine List.pairwise_append.2 ⟨h, List.pairwise_singleton _ _, fun a ha b hb => ?_⟩
  obtain rfl := List.mem_singleton.1 hb
  exact hfree a ha

/-- A number is verified that is free on both sides. -/
theorem add (h : OneToOne verified approved) (hverified : Free verified user phone)
    (happroved : Free approved user phone) : OneToOne (verified ++ [⟨user, phone, version⟩]) approved where
  verifiedOnce := pairwise_append h.verifiedOnce hverified
  approvedOnce := h.approvedOnce
  apart := by
    intro v hv a ha
    rcases List.mem_append.1 hv with hv | hv
    · exact h.apart v hv a ha
    · obtain rfl := List.mem_singleton.1 hv
      exact ⟨(happroved a ha).1.symm, (happroved a ha).2.symm⟩

/-- An approved number is proved. -/
theorem promote (h : OneToOne verified approved) {b : Binding} (hb : b ∈ approved)
    (hfree : Free verified b.user b.phone) :
    OneToOne (verified ++ [⟨b.user, b.phone, version⟩]) (approved.filter (· ≠ b)) := by
  have hsmaller : OneToOne verified (approved.filter (· ≠ b)) :=
    ⟨h.verifiedOnce, h.approvedOnce.filter _, fun v hv a ha => h.apart v hv a (List.mem_filter.1 ha).1⟩
  refine hsmaller.add hfree fun a ha => ?_
  obtain ⟨ha, hne⟩ := List.mem_filter.1 ha
  have hne : a ≠ b := by simpa using hne
  exact h.approvedOnce.forall ha hb hne

/-- The number of a user is replaced by one that nobody else has. -/
theorem replace (h : OneToOne verified approved)
    (hfree : ∀ b ∈ verified ++ approved, b.user ≠ user → b.phone ≠ phone) :
    OneToOne (verified.filter (·.user != user)) (approved.filter (·.user != user) ++ [⟨user, phone, version⟩]) := by
  have hleft : ∀ l : List Binding, (∀ b ∈ l, b ∈ verified ++ approved) → Free (l.filter (·.user != user)) user phone := by
    intro l hl b hb
    obtain ⟨hb, hne⟩ := List.mem_filter.1 hb
    have hne : b.user ≠ user := by simpa using hne
    exact ⟨hne, hfree b (hl b hb) hne⟩
  refine ⟨h.verifiedOnce.filter _, pairwise_append (h.approvedOnce.filter _) (hleft approved fun b hb => by simp [hb]), ?_⟩
  intro v hv a ha
  rcases List.mem_append.1 ha with ha | ha
  · exact h.apart v (List.mem_filter.1 hv).1 a (List.mem_filter.1 ha).1
  · obtain rfl := List.mem_singleton.1 ha
    exact hleft verified (fun b hb => by simp [hb]) v hv

end OneToOne

/-- The version of the binding that a call of `begin` has read. -/
def BeginStage.version : BeginStage → Option ℕ
  | .found binding => binding.map Binding.version
  | .checked _ version => version

structure Sound (w : World) : Prop where
  oneToOne : OneToOne w.verified w.approved
  proved : ∀ v ∈ w.verified, ∃ e ∈ w.consumptions, e.user = v.user ∧ e.phone = v.phone
  log : ∀ e ∈ w.consumptions, ∃ c, w.challenges[e.key]? = some c ∧ c.status = .consumed ∧ e.session = c.session ∧
    c.user = some e.user ∧ e.phone = c.phone ∧ e.at' < c.createdAt + 300 ∧ e.attempts ≤ 5
  once : (w.consumptions.map Consumption.key).Nodup
  expires : ∀ (k : ℕ) c, w.challenges[k]? = some c → c.expiresAt = c.createdAt + 300
  issued : ∀ b ∈ w.verified ++ w.approved, b.version < w.versions
  asked : ∀ i call, w.calls i = some call → ∀ v, call.stage.version = some v → v < w.versions

theorem isBindingOf_iff {c : PhoneChallenge} {b : Binding} :
    World.isBindingOf c b = true ↔ c.user = some b.user ∧ b.phone = c.phone ∧ c.bindingVersion = some b.version := by
  simp [World.isBindingOf, and_assoc]

/-- A version that a call of `begin` knows it has read before, or it is that of a binding. -/
theorem step_calls {a : Action} {i : ℕ} {call : Begin} (h : (step normalize digest w a).calls i = some call) {v : ℕ}
    (hv : call.stage.version = some v) :
    (∃ call', w.calls i = some call' ∧ call'.stage.version = some v) ∨ ∃ b ∈ w.verified ++ w.approved, b.version = v := by
  have hset : ∀ (u : World) (j : ℕ) (x : Option Begin), (u.setCall j x).calls i = some call →
      i = j ∧ x = some call ∨ u.calls i = some call := by
    intro u j x hx
    by_cases hij : i = j
    · exact .inl ⟨hij, by rw [← hx, hij]; exact (if_pos rfl).symm⟩
    · refine .inr ?_
      rw [← hx]
      exact (if_neg hij).symm
  cases a with
  | wait | configure | account | rotate | crash => exact .inl ⟨call, h, hv⟩
  | begin j request phone purpose =>
    unfold step at h
    dsimp only at h
    split_ifs at h
    · rcases hset w j _ h with ⟨_, hcall⟩ | h
      · obtain rfl := Option.some.inj hcall
        obtain ⟨b, hb, rfl⟩ := Option.map_eq_some_iff.1 hv
        exact .inr ⟨b, List.mem_append_left _ (List.mem_of_find?_eq_some hb), rfl⟩
      · exact .inl ⟨call, h, hv⟩
    · exact .inl ⟨call, h, hv⟩
  | check j limited =>
    unfold step at h
    dsimp only at h
    split at h
    · rename_i call' hcall'
      split at h
      · rename_i binding hstage
        split at h
        · rename_i user version huser
          rcases hset w j _ h with ⟨rfl, hcall⟩ | h
          · split_ifs at hcall
            obtain rfl := Option.some.inj hcall
            have hversion : ((binding <|> w.approved.find? fun b => b.phone == call'.phone).map Binding.version) =
                some v := by
              have hv : version = some v := hv
              unfold World.beginUser at huser
              dsimp only at huser
              split at huser
              · split_ifs at huser
                obtain ⟨_, rfl⟩ := Prod.mk.inj (Option.some.inj huser)
                exact hv
              · cases huser
              · obtain ⟨_, rfl⟩ := Prod.mk.inj (Option.some.inj huser)
                exact hv
              · cases huser
            cases binding with
            | some b => exact .inl ⟨call', hcall', by rw [hstage]; exact hversion⟩
            | none =>
              obtain ⟨b, hb, hbv⟩ := Option.map_eq_some_iff.1 hversion
              exact .inr ⟨b, List.mem_append_right _ (List.mem_of_find?_eq_some hb), hbv⟩
          · exact .inl ⟨call, h, hv⟩
        · rcases hset w j _ h with ⟨_, hcall⟩ | h
          · cases hcall
          · exact .inl ⟨call, h, hv⟩
      · exact .inl ⟨call, h, hv⟩
    · exact .inl ⟨call, h, hv⟩
  | store j =>
    unfold step at h
    dsimp only at h
    split at h
    · split at h
      · rcases hset _ j _ h with ⟨_, hcall⟩ | h
        · cases hcall
        · refine .inl ⟨call, ?_, hv⟩
          rw [← h]
          exact (congrFun (World.supersedePrevious_calls w _) i).symm
      · exact .inl ⟨call, h, hv⟩
    · exact .inl ⟨call, h, hv⟩
  | dispatchFails key => exact .inl ⟨call, World.updateIf_calls w .. ▸ h, hv⟩
  | deliver key code =>
    unfold step at h
    dsimp only at h
    split at h
    · split_ifs at h <;> exact .inl ⟨call, h, hv⟩
    · exact .inl ⟨call, h, hv⟩
  | submit key =>
    unfold step at h
    dsimp only at h
    split_ifs at h <;> exact .inl ⟨call, h, hv⟩
  | accepted key =>
    unfold step at h
    dsimp only at h
    split_ifs at h
    · exact .inl ⟨call, World.updateIf_calls w .. ▸ h, hv⟩
    · exact .inl ⟨call, h, hv⟩
  | raise key =>
    unfold step at h
    dsimp only at h
    split_ifs at h
    · exact .inl ⟨call, World.updateIf_calls w .. ▸ h, hv⟩
    · exact .inl ⟨call, h, hv⟩
  | consume request submitted limited => exact .inl ⟨call, World.consume_calls w request submitted limited ▸ h, hv⟩
  | update x => exact .inl ⟨call, World.updateIdentity_calls w x ▸ h, hv⟩

variable (normalize digest) in
theorem versions_mono (w : World) (a : Action) : w.versions ≤ (step normalize digest w a).versions := by
  rcases step_cases normalize digest w a with h | ⟨_, _, _, _, v, h⟩ | ⟨_, _, h⟩
  · exact h.versions.ge
  · rw [h.result]
    change w.versions ≤ v.versions
    cases h.accepted with
    | bound _ _ _ versions _ _ => omega
    | proved _ _ _ _ _ versions _ => omega
    | signed _ _ _ _ _ versions => omega
  · exact h.versions ▸ Nat.le_succ _

/-- What is new among the bindings has the next version. -/
theorem step_bindings {a : Action} {b : Binding}
    (h : b ∈ (step normalize digest w a).verified ++ (step normalize digest w a).approved) :
    b ∈ w.verified ++ w.approved ∨ b.version = w.versions ∧ (step normalize digest w a).versions = w.versions + 1 := by
  rcases step_cases normalize digest w a with hs | ⟨_, _, _, _, v, hc⟩ | ⟨_, _, hr⟩
  · rw [hs.verified, hs.approved] at h
    exact .inl h
  · rw [hc.result] at h ⊢
    change b ∈ v.verified ++ v.approved at h
    change _ ∨ _ ∧ v.versions = _
    cases hc.accepted with
    | bound _ verified approved versions _ _ =>
      rw [verified, approved] at h
      simp only [List.append_assoc, List.mem_append, List.mem_singleton] at h ⊢
      rcases h with h | rfl | h
      · exact .inl (.inl h)
      · exact .inr ⟨rfl, versions⟩
      · exact .inl (.inr h)
    | proved _ _ _ verified approved versions _ =>
      rw [verified, approved] at h
      simp only [List.append_assoc, List.mem_append, List.mem_singleton, List.mem_filter] at h ⊢
      rcases h with h | rfl | h
      · exact .inl (.inl h)
      · exact .inr ⟨rfl, versions⟩
      · exact .inl (.inr h.1)
    | signed _ _ _ verified approved _ =>
      rw [verified, approved] at h
      exact .inl h
  · rw [hr.verified, hr.approved] at h
    simp only [List.mem_append, List.mem_singleton, List.mem_filter] at h ⊢
    rcases h with h | h | rfl
    · exact .inl (.inl h.1)
    · exact .inl (.inr h.1)
    · exact .inr ⟨rfl, hr.versions⟩

namespace Sound

theorem of_initial : Sound initial where
  oneToOne := ⟨.nil, .nil, by simp [initial]⟩
  proved := by simp [initial]
  log := by simp [initial]
  once := by simp [initial]
  expires := by simp [initial]
  issued := by simp [initial]
  asked := by simp [initial]

theorem owner_unique {c : PhoneChallenge} {user : ℕ} {b : Binding} (howner : c.user = some user)
    (hb : World.isBindingOf c b = true) : b.user = user ∧ b.phone = c.phone ∧ c.bindingVersion = some b.version := by
  obtain ⟨huser, hphone, hversion⟩ := isBindingOf_iff.1 hb
  exact ⟨Option.some.inj (huser.symm.trans howner), hphone, hversion⟩

theorem step (h : Sound w) (a : Action) : Sound (step normalize digest w a) := by
  have hfollows := step_follows normalize digest w a
  have hcases := step_cases normalize digest w a
  -- what is logged stays logged: its challenge is over
  have hkept : ∀ e ∈ w.consumptions, ∃ c, (PhoneAuth.step normalize digest w a).challenges[e.key]? = some c ∧
      c.status = .consumed ∧ e.session = c.session ∧ c.user = some e.user ∧ e.phone = c.phone ∧
      e.at' < c.createdAt + 300 ∧ e.attempts ≤ 5 := by
    intro e he
    obtain ⟨c, hc, hstatus, hsession, huser, hphone, htime, hattempts⟩ := h.log e he
    obtain ⟨c', hc', hf⟩ := hfollows e.key c hc
    refine ⟨c', hc', (hf.closed (by simp [ChallengeStatus.isOpen, hstatus])).trans hstatus, hsession.trans hf.session.symm,
      hf.user.trans huser, hphone.trans hf.phone.symm, hf.created ▸ htime, hattempts⟩
  constructor
  case oneToOne =>
    rcases hcases with hs | ⟨_, _, c, user, v, hc⟩ | ⟨x, _, hr⟩
    · rw [hs.verified, hs.approved]
      exact h.oneToOne
    · rw [hc.result]
      change OneToOne v.verified v.approved
      cases hc.accepted with
      | bound _ verified approved _ free free' =>
        rw [verified, approved]
        exact h.oneToOne.add free free'
      | proved b mem current verified approved _ free =>
        obtain ⟨rfl, hphone, _⟩ := owner_unique hc.owner current
        rw [verified, approved, ← hphone]
        exact h.oneToOne.promote mem (hphone ▸ free)
      | signed _ _ _ verified approved _ =>
        rw [verified, approved]
        exact h.oneToOne
    · rw [hr.verified, hr.approved]
      refine h.oneToOne.replace fun b hb hne => ?_
      have hadmits := hr.admitted
      simp only [World.admits, Bool.and_eq_true, Bool.not_eq_true', List.any_eq_false] at hadmits
      simpa [hne] using hadmits.1.1.2 b hb
  case proved =>
    intro b hb
    rcases hcases with hs | ⟨request, key, c, user, v, hc⟩ | ⟨x, _, hr⟩
    · rw [hs.verified] at hb
      rw [hs.consumptions]
      exact h.proved b hb
    · have hold : b ∈ w.verified → ∃ e ∈ (v.consumed request key c user).consumptions,
          e.user = b.user ∧ e.phone = b.phone := by
        intro hb
        obtain ⟨e, he, heb⟩ := h.proved b hb
        exact ⟨e, List.mem_append_left _ (hc.consumptions ▸ he), heb⟩
      have hnew : b ∈ w.verified ++ [⟨user, c.phone, w.versions⟩] →
          ∃ e ∈ (v.consumed request key c user).consumptions, e.user = b.user ∧ e.phone = b.phone := by
        intro hb
        rcases List.mem_append.1 hb with hb | hb
        · exact hold hb
        · obtain rfl := List.mem_singleton.1 hb
          exact ⟨_, List.mem_append_right _ (List.mem_singleton_self _), rfl, rfl⟩
      rw [hc.result] at hb ⊢
      change b ∈ v.verified at hb
      cases hc.accepted with
      | bound _ verified _ _ _ _ => exact hnew (verified ▸ hb)
      | proved _ _ _ verified _ _ _ => exact hnew (verified ▸ hb)
      | signed _ _ _ verified _ _ => exact hold (verified ▸ hb)
    · rw [hr.verified] at hb
      rw [hr.consumptions]
      exact h.proved b (List.mem_filter.1 hb).1
  case log =>
    intro e he
    rcases hcases with hs | ⟨request, key, c, user, v, hc⟩ | ⟨x, _, hr⟩
    · exact hkept e (hs.consumptions ▸ he)
    · have he' : e ∈ w.consumptions ++ [⟨key, request.session, w.now, c.attempts + 1, user, c.phone, c.purpose,
          c.bindingVersion⟩] := by
        rw [← hc.consumptions, ← hc.now]
        rw [hc.result] at he
        exact he
      rcases List.mem_append.1 he' with he' | he'
      · exact hkept e he'
      · obtain rfl := List.mem_singleton.1 he'
        have hlt := (List.getElem?_eq_some_iff.1 hc.challenge).1
        refine ⟨c.use, ?_, rfl, hc.session.symm, hc.owner, rfl, ?_, hc.attempts⟩
        · rw [hc.result]
          change (v.challenges.set key c.use)[key]? = _
          simp [hc.challenges, hlt]
        · exact h.expires key c hc.challenge ▸ hc.inTime
    · exact hkept e (hr.consumptions ▸ he)
  case once =>
    rcases hcases with hs | ⟨request, key, c, user, v, hc⟩ | ⟨x, _, hr⟩
    · rw [hs.consumptions]
      exact h.once
    · rw [hc.result]
      change ((v.consumptions ++ [_]).map Consumption.key).Nodup
      rw [hc.consumptions, List.map_append, List.nodup_append]
      refine ⟨h.once, List.nodup_singleton _, fun k hk j hj => ?_⟩
      obtain ⟨e, he, rfl⟩ := List.mem_map.1 hk
      obtain rfl := List.mem_singleton.1 hj
      rintro heq
      obtain ⟨c', hc', hstatus, _⟩ := h.log e he
      rw [heq, hc.challenge] at hc'
      obtain rfl := Option.some.inj hc'
      simp [hc.status] at hstatus
    · rw [hr.consumptions]
      exact h.once
  case expires =>
    intro k c' hc'
    have hold : k < w.challenges.length → c'.expiresAt = c'.createdAt + 300 := by
      intro hk
      obtain ⟨d, hd, hf⟩ := hfollows k _ (List.getElem?_eq_getElem hk)
      obtain rfl := Option.some.inj (hc'.symm.trans hd)
      rw [hf.expires, hf.created]
      exact h.expires k _ (List.getElem?_eq_getElem hk)
    have hk := (List.getElem?_eq_some_iff.1 hc').1
    rcases step_new normalize digest w a with hlength | ⟨v, call, user, version, hv, hnew⟩
    · exact hold (hlength ▸ hk)
    · by_cases hlt : k < w.challenges.length
      · exact hold hlt
      · rw [hnew, List.getElem?_append_right (by omega)] at hc'
        obtain rfl := List.mem_singleton.1 (List.mem_of_getElem? hc')
        rfl
  case issued =>
    intro b hb
    rcases step_bindings hb with hold | ⟨hversion, hnext⟩
    · exact (h.issued b hold).trans_le (versions_mono normalize digest w a)
    · omega
  case asked =>
    intro i call hcall v hv
    refine lt_of_lt_of_le ?_ (versions_mono normalize digest w a)
    rcases step_calls hcall hv with ⟨call', hcall', hv'⟩ | ⟨b, hb, rfl⟩
    · exact h.asked i call' hcall' v hv'
    · exact h.issued b hb

variable (normalize digest) in
theorem after (as : List Action) : Sound (after normalize digest as) :=
  Machine.run_inv (fun _ a h => h.step a) of_initial as

end Sound

/-! ### After an identity change -/

/-- What is consumed while nothing open of the user is older than `length`, nor any binding older than `version`. -/
structure Renewed (old : List Consumption) (user length : ℕ) (version : Option ℕ) (w : World) : Prop where
  closed : ∀ (k : ℕ) c, k < length → w.challenges[k]? = some c → c.user = some user → c.status.isOpen = false
  length_le : length ≤ w.challenges.length
  bindings : ∀ n, version = some n → n ≤ w.versions ∧ ∀ b ∈ w.verified ++ w.approved, b.user = user → n ≤ b.version
  log : ∀ e ∈ w.consumptions, e ∉ old → e.user = user →
    length ≤ e.key ∧ (∀ n, version = some n → e.purpose = .login → ∃ m, e.version = some m ∧ n ≤ m)

/-- A login that is consumed is one of the binding of its user that is current. -/
theorem step_login {a : Action} {e : Consumption} (he : e ∈ (step normalize digest w a).consumptions)
    (hnew : e ∉ w.consumptions) : ∃ c, w.challenges[e.key]? = some c ∧ c.status = .sent ∧ c.user = some e.user ∧
      (e.purpose = .login → ∃ b ∈ w.verified ++ w.approved, b.user = e.user ∧ b.phone = e.phone ∧
        e.version = some b.version) := by
  rcases step_cases normalize digest w a with hs | ⟨request, key, c, user, v, hc⟩ | ⟨x, _, hr⟩
  · exact absurd (hs.consumptions ▸ he) hnew
  · rw [hc.result] at he
    rcases List.mem_append.1 he with he | he
    · exact absurd (hc.consumptions ▸ he) hnew
    · obtain rfl := List.mem_singleton.1 he
      refine ⟨c, hc.challenge, hc.status, hc.owner, fun hlogin => ?_⟩
      cases hc.accepted with
      | bound purpose _ _ _ _ _ => exact absurd (purpose.symm.trans hlogin) (by decide)
      | proved b mem current _ _ _ _ => exact ⟨b, List.mem_append_right _ mem, Sound.owner_unique hc.owner current⟩
      | signed b mem current _ _ _ => exact ⟨b, mem, Sound.owner_unique hc.owner current⟩
  · exact absurd (hr.consumptions ▸ he) hnew

namespace Renewed

variable {old : List Consumption} {user length : ℕ} {version : Option ℕ}

theorem step (h : Renewed old user length version w) (a : Action) :
    Renewed old user length version (step normalize digest w a) := by
  have hfollows := step_follows normalize digest w a
  constructor
  case closed =>
    intro k c' hk hc' huser
    obtain ⟨d, hd, hf⟩ := hfollows k _ (List.getElem?_eq_getElem (hk.trans_le h.length_le))
    obtain rfl := Option.some.inj (hc'.symm.trans hd)
    have hclosed := h.closed k _ hk (List.getElem?_eq_getElem (hk.trans_le h.length_le)) (hf.user ▸ huser)
    rw [hf.closed hclosed]
    exact hclosed
  case length_le =>
    rcases step_new normalize digest w a with hlength | ⟨v, call, u, version, hv, hnew⟩
    · exact hlength ▸ h.length_le
    · rw [hnew, List.length_append, hv]
      exact h.length_le.trans (Nat.le_add_right _ _)
  case bindings =>
    intro n hn
    obtain ⟨hle, hold⟩ := h.bindings n hn
    refine ⟨hle.trans (versions_mono normalize digest w a), fun b hb hbu => ?_⟩
    rcases step_bindings hb with hb | ⟨hversion, _⟩
    · exact hold b hb hbu
    · exact hversion ▸ hle
  case log =>
    intro e he heold heu
    by_cases hlogged : e ∈ w.consumptions
    · exact h.log e hlogged heold heu
    · obtain ⟨c, hc, hsent, howner, hlogin⟩ := step_login he hlogged
      refine ⟨?_, fun n hn hpurpose => ?_⟩
      · by_contra hlt
        have hclosed := h.closed e.key c (not_le.1 hlt) hc (heu ▸ howner)
        simp [ChallengeStatus.isOpen, hsent] at hclosed
      · obtain ⟨b, hb, hbu, _, hbv⟩ := hlogin hpurpose
        exact ⟨b.version, hbv, (h.bindings n hn).2 b hb (hbu.trans heu)⟩

/-- An identity change closes the open codes of the user, and replaces the binding if the number is another one. -/
theorem of_update (x : IdentityChange) (h : w.admits x = true) :
    Renewed w.consumptions x.user w.challenges.length
      (if w.currentPhone x.user ≠ x.phone then some w.versions else none) (w.updateIdentity x) := by
  have hchallenges := updateIdentity_challenges w x h
  constructor
  case closed =>
    intro k c' _ hc' huser
    rw [hchallenges, List.getElem?_map] at hc'
    obtain ⟨c, _, rfl⟩ := Option.map_eq_some_iff.1 hc'
    split_ifs at huser ⊢ with hc
    · rfl
    · by_contra hopen
      exact hc ⟨huser, by simpa using hopen⟩
  case length_le => rw [hchallenges, List.length_map]
  case bindings =>
    intro n hn
    split_ifs at hn with hphone
    obtain rfl := Option.some.inj hn
    have hupdate : w.updateIdentity x = (w.replacePhone x).closeCodes x := by
      unfold World.updateIdentity
      rw [if_pos h, if_pos hphone]
    rw [hupdate]
    refine ⟨Nat.le_succ _, fun b hb hbu => ?_⟩
    change b ∈ w.verified.filter (·.user != x.user) ++ (w.approved.filter (·.user != x.user) ++
      [⟨x.user, x.phone, w.versions⟩]) at hb
    simp only [List.mem_append, List.mem_filter, bne_iff_ne, List.mem_singleton] at hb
    rcases hb with hb | hb | rfl
    · exact absurd hbu hb.2
    · exact absurd hbu hb.2
    · exact le_rfl
  case log =>
    intro e he heold
    rcases updateIdentity_cases w x with hs | hr
    · exact absurd (hs.consumptions ▸ he) heold
    · exact absurd (hr.consumptions ▸ he) heold

theorem run (h : Renewed old user length version w) (as : List Action) :
    Renewed old user length version (Machine.run (PhoneAuth.step normalize digest) w as) :=
  Machine.run_inv (fun _ a h => h.step a) h as

end Renewed

/--
Whatever is begun, delivered, submitted and changed, in any order: users and numbers stand once among the verified and
the approved numbers, and a number is verified only by a consumed code; a challenge is consumed once, from its session,
within its 300 seconds and with at most five counted attempts; a login consumes a code of the user's binding as it is
in that moment; and after an identity change no code of the user is consumed that was stored before it, nor, if the
number changed, one that was asked for a binding from before it.
-/
theorem phone_identity (normalize : String → Option String) (digest : ℕ → String → String) (as : List Action) :
    OneToOne (after normalize digest as).verified (after normalize digest as).approved ∧
      (∀ b ∈ (after normalize digest as).verified,
        ∃ e ∈ (after normalize digest as).consumptions, e.user = b.user ∧ e.phone = b.phone) ∧
      ((after normalize digest as).consumptions.map Consumption.key).Nodup ∧
      (∀ e ∈ (after normalize digest as).consumptions, ∃ c, (after normalize digest as).challenges[e.key]? = some c ∧
        e.session = c.session ∧ e.at' < c.createdAt + 300 ∧ e.attempts ≤ 5) ∧
      (∀ a, ∀ e ∈ (after normalize digest (as ++ [a])).consumptions, e ∉ (after normalize digest as).consumptions →
        e.purpose = .login → ∃ b ∈ (after normalize digest as).verified ++ (after normalize digest as).approved,
          b.user = e.user ∧ b.phone = e.phone ∧ e.version = some b.version) ∧
      (∀ i call v, (after normalize digest as).calls i = some call → call.stage.version = some v →
        v < (after normalize digest as).versions) ∧
      ∀ x bs, (after normalize digest as).admits x = true →
        ∀ e ∈ (after normalize digest (as ++ .update x :: bs)).consumptions,
          e ∉ (after normalize digest as).consumptions → e.user = x.user →
            (after normalize digest as).challenges.length ≤ e.key ∧
              ((after normalize digest as).currentPhone x.user ≠ x.phone → e.purpose = .login →
                ∃ v, e.version = some v ∧ (after normalize digest as).versions ≤ v) := by
  have h := Sound.after normalize digest as
  refine ⟨h.oneToOne, h.proved, h.once, fun e he => ?_, fun a e he hnew hlogin => ?_,
    fun i call v hcall hv => h.asked i call hcall v hv, fun x bs hadmits e he hnew huser => ?_⟩
  · obtain ⟨c, hc, _, hsession, _, _, htime, hattempts⟩ := h.log e he
    exact ⟨c, hc, hsession, htime, hattempts⟩
  · rw [PhoneAuth.after, Machine.run_append] at he
    obtain ⟨_, _, _, _, hcurrent⟩ := step_login he hnew
    exact hcurrent hlogin
  · rw [PhoneAuth.after, Machine.run_append, Machine.run_cons] at he
    obtain ⟨hkey, hversion⟩ := ((Renewed.of_update x hadmits).run bs).log e he hnew huser
    exact ⟨hkey, fun hphone => hversion _ (if_pos hphone)⟩

/-- A guest proves a number, and later asks for a code to sign in with it. -/
def asked : List Action :=
  [.begin 0 ⟨10, some 1, true⟩ "966500000000" .bind, .check 0 false, .store 0, .deliver 0 "123456", .submit 0,
    .accepted 0, .consume ⟨10, some 1, true⟩ "123456" false, .begin 1 ⟨20, none, false⟩ "966500000000" .login,
    .check 1 false]

/-- The owner replaces the e-mail address and leaves the number. -/
def emailChange : IdentityChange := ⟨1, "966500000000", true, true, "966500000000", some 0, none⟩

/-- The code is stored, sent and submitted. -/
def answered : List Action :=
  [.store 1, .deliver 1 "654321", .submit 1, .accepted 1, .consume ⟨20, none, false⟩ "654321" false]

/-- The login is one of the user's binding, and its code was stored after the change. -/
theorem phone_identity_signed :
    (∃ b ∈ (after some (fun _ c => c) (asked ++ .update emailChange :: answered.take 4)).verified ++
        (after some (fun _ c => c) (asked ++ .update emailChange :: answered.take 4)).approved, b.user = 1 ∧
          b.phone = "966500000000" ∧ some 0 = some b.version) ∧
      (after some (fun _ c => c) asked).challenges.length ≤ 1 := by
  have hlogin := (phone_identity some (fun _ c => c) (asked ++ .update emailChange :: answered.take 4)).2.2.2.2.1
    (.consume ⟨20, none, false⟩ "654321" false) ⟨1, 20, 0, 1, 1, "966500000000", .login, some 0⟩
    (by decide +kernel) (by decide +kernel) rfl
  have hafter := (phone_identity some (fun _ c => c) asked).2.2.2.2.2.2 emailChange answered (by decide +kernel)
    ⟨1, 20, 0, 1, 1, "966500000000", .login, some 0⟩ (by decide +kernel) (by decide +kernel) rfl
  exact ⟨hlogin, hafter.1⟩

/-- A code that was asked for before an identity change signs in after it: the change left the number as it was, and
`begin` had read the binding but not yet stored the code. -/
theorem asked_before_signs_in_after :
    ¬ ∀ (normalize : String → Option String) (digest : ℕ → String → String) (as bs : List Action) (x : IdentityChange),
      (after normalize digest as).admits x = true →
        (∀ i request phone purpose, Action.begin i request phone purpose ∉ bs) →
          ∀ e ∈ (after normalize digest (as ++ .update x :: bs)).consumptions,
            e ∉ (after normalize digest as).consumptions → e.user = x.user → e.purpose ≠ .login := by
  intro h
  exact h some (fun _ c => c) asked answered emailChange (by decide +kernel) (by simp [answered])
    ⟨1, 20, 0, 1, 1, "966500000000", .login, some 0⟩ (by decide +kernel) (by decide +kernel) rfl rfl

end Apartments.PhoneAuth
