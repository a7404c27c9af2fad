import Apartments.Loyalty.Chain

/-!
# What a stay has earned

A settlement brings the nets of the booking to its plan, and leaves what it does not plan for. The nets of a booking stay
with the beneficiaries of the chain that it stores, unless an offer to its guest replaces that chain while inviters still
have points for it.
-/

namespace Apartments.Loyalty

/-! ### What settlements promise -/

/-- A call that settles leaves with every beneficiary of the plan exactly what the plan says. -/
def SettlesByPlan (digest : Payload → String) (v : World) : Prop :=
  ∀ site pk v' movements base, reconcile digest site pk v = .ok (v', .settled movements base) →
    ∃ w b facts owner chain plan, settlement site v pk = some (w, b, facts) ∧ facts.base = base ∧
      (beneficiary b facts.offer).bind w.memberOf = some owner ∧ settledChain w b owner facts = .ok chain ∧
      rewardPlan base owner chain = .ok plan ∧ ∀ share ∈ plan, ∃ m, v'.member share.member.pk = some m ∧
        rewarded v' pk m.pk share.kind.component = target m share.cents

/-- A call that reads the facts of the last settlement posts nothing. -/
def KeepsUnchanged (digest : Payload → String) (v : World) : Prop :=
  ∀ site pk w b facts r, settlement site v pk = some (w, b, facts) →
    b.loyaltyState.settlement.map (·.facts) = some facts → reconcile digest site pk v = .ok r →
    r.2 = .unchanged ∧ r.1.ledger = v.ledger

/-- When the booking was last settled with base zero, nobody has points for it. -/
def ClearsCancelled (pk : Uuid) (v : World) : Prop :=
  ∀ b ∈ v.booking pk, ∀ s ∈ b.loyaltyState.settlement, s.facts.base = 0 →
    ∀ member component, rewarded v pk member component = 0

/-! ### The condition -/

/-- Nobody has points for the booking but the user, as the guest. -/
def OnlyRewarded (w : World) (pk : Uuid) (user : User) : Prop :=
  ∀ r ∈ w.ledger, rewarded w pk r.member r.component ≠ 0 →
    r.component = .loyalty ∧ ∃ m ∈ w.memberOf user, m.pk = r.member

instance (w : World) (pk : Uuid) (user : User) : Decidable (OnlyRewarded w pk user) :=
  inferInstanceAs (Decidable (∀ r ∈ w.ledger, _))

/-- A settlement of the booking under an offer drops nobody who has points for it. -/
def DropsNobody (pk : Uuid) (w : World) (b : Booking) (facts : Facts) : Prop :=
  b.pk = pk → ∀ offer ∈ facts.offer, OnlyRewarded w pk offer.beneficiary

instance (pk : Uuid) (w : World) (b : Booking) (facts : Facts) : Decidable (DropsNobody pk w b facts) :=
  inferInstanceAs (Decidable (_ → _))

/-- No settlement that the action makes drops anybody. -/
def World.dropsNobody (digest : Payload → String) (pk : Uuid) (w : World) : Action → Prop
  | .operate site op => ∀ call ∈ op.calls digest site w, Permits site (DropsNobody pk) call
  | .book .. | .record .. => True

/-- The action leaves the booking with its customer. -/
def World.keepsCustomer (digest : Payload → String) (pk : Uuid) (w : World) (a : Action) : Prop :=
  ∀ b ∈ w.booking pk, ((w.step digest a).booking pk).map (·.customer) = some b.customer

instance (digest : Payload → String) (pk : Uuid) (w : World) (a : Action) : Decidable (w.dropsNobody digest pk a) :=
  match a with
  | .operate site op => inferInstanceAs (Decidable (∀ call ∈ op.calls digest site w, _))
  | .book .. | .record .. => .isTrue trivial

instance (digest : Payload → String) (pk : Uuid) (w : World) (a : Action) : Decidable (w.keepsCustomer digest pk a) :=
  inferInstanceAs (Decidable (∀ b ∈ w.booking pk, _))

/-! ### The invariant -/

/-- What the rewards of a booking depend on. -/
def Booking.core (b : Booking) : Option User × Option Settlement × Option (List ℕ) :=
  (b.customer, b.loyaltyState.settlement, b.loyaltyState.referralChain)

/-- The nets of the booking are those of the beneficiaries of its chain. -/
structure Placed (w : World) (b : Booking) (owner : ℕ) (keys : List ℕ) : Prop where
  chain : b.loyaltyState.referralChain = some keys
  guest : ∀ user ∈ b.customer, ∃ m ∈ w.members, m.pk = owner ∧ m.customer = user
  nets : ∀ member component, rewarded w b.pk member component ≠ 0 → (member, component) ∈ rewardKeys owner keys

structure InPlace (pk : Uuid) (w : World) : Prop where
  placed : (∀ member component, rewarded w pk member component = 0) ∨
    ∃ b ∈ w.booking pk, ∃ owner keys, Placed w b owner keys
  cleared : ClearsCancelled pk w

section
variable {digest : Payload → String} {site : Site} {P : World → Booking → Facts → Prop} {w w' : World} {b : Booking}
  {pk : Uuid} {rows : List Row} {facts : Facts}

theorem core_eq {b' : Booking} (h : b'.core = b.core) : b'.customer = b.customer ∧
    b'.loyaltyState.settlement = b.loyaltyState.settlement ∧ b'.loyaltyState.referralChain = b.loyaltyState.referralChain :=
  ⟨(Prod.mk.inj h).1, (Prod.mk.inj (Prod.mk.inj h).2).1, (Prod.mk.inj (Prod.mk.inj h).2).2⟩

/-- A change that is none to the rewards of the booking. -/
theorem InPlace.keep (h : InPlace pk w)
    (hmembers : ∀ m ∈ w.members, ∃ m' ∈ w'.members, m'.pk = m.pk ∧ m'.customer = m.customer)
    (hcore : (w'.booking pk).map Booking.core = (w.booking pk).map Booking.core)
    (hnets : ∀ member component, rewarded w' pk member component = rewarded w pk member component) : InPlace pk w' where
  placed := by
    rcases h.placed with hzero | ⟨b, hb, owner, keys, hplaced⟩
    · exact .inl fun member component => (hnets member component).trans (hzero member component)
    · have hb : w.booking pk = some b := hb
      rw [hb, Option.map_some, Option.map_eq_some_iff] at hcore
      obtain ⟨b', hb', hcore⟩ := hcore
      obtain ⟨hcustomer, -, hchain⟩ := core_eq hcore
      have hpk : b'.pk = b.pk := (Table.key_of_get hb').trans (Table.key_of_get hb).symm
      refine .inr ⟨b', hb', owner, keys, hchain.trans hplaced.chain, ?_, ?_⟩
      · intro user huser
        obtain ⟨m, hm, howner, hguest⟩ := hplaced.guest user (hcustomer ▸ huser)
        obtain ⟨m', hm', hpk', hcustomer'⟩ := hmembers m hm
        exact ⟨m', hm', hpk'.trans howner, hcustomer'.trans hguest⟩
      · intro member component hne
        rw [hpk, Table.key_of_get hb, hnets] at hne
        refine hplaced.nets member component ?_
        rw [Table.key_of_get hb]
        exact hne
  cleared := by
    intro b' hb' s hs hbase member component
    have hb' : w'.booking pk = some b' := hb'
    rw [hb', Option.map_some, eq_comm, Option.map_eq_some_iff] at hcore
    obtain ⟨b, hb, hcore⟩ := hcore
    rw [hnets]
    exact h.cleared b hb s ((core_eq hcore).2.1 ▸ hs) hbase member component

theorem core_putState {pk' : Uuid} {state : LoyaltyState}
    (h : ∀ b ∈ w.bookings, b.pk = pk → b.pk = pk' → state.settlement = b.loyaltyState.settlement ∧
      state.referralChain = b.loyaltyState.referralChain) :
    ((w.putState pk' state).booking pk).map Booking.core = (w.booking pk).map Booking.core := by
  have hget : (w.putState pk' state).booking pk = (w.booking pk).map fun b =>
      if b.pk = pk' then { b with loyaltyState := state } else b :=
    Table.get_map fun b => by split <;> rfl
  rw [hget, Option.map_map]
  refine Option.map_congr fun b hb => ?_
  have hb : w.booking pk = some b := hb
  by_cases hpk : b.pk = pk'
  · obtain ⟨hsettlement, hchain⟩ := h b (Table.mem_of_get hb) (Table.key_of_get hb) hpk
    simp [hpk, Booking.core, hsettlement, hchain]
  · simp [hpk]

theorem booking_putState {state : LoyaltyState} (hb : w.booking b.pk = some b) :
    (w.putState b.pk state).booking b.pk = some { b with loyaltyState := state } := by
  have hget : (w.putState b.pk state).booking b.pk = (w.booking b.pk).map fun b' => { b' with loyaltyState := state } :=
    Table.get_modify_self fun _ h => h
  rw [hget, hb, Option.map_some]

/-- Rows of another booking, or that are no rewards. -/
theorem rewarded_others (h : ∀ r ∈ rows, r.reservation = some pk → r.eventType ≠ .earn ∧ r.eventType ≠ .adjust)
    (member : ℕ) (component : Component) :
    rewarded { w with ledger := w.ledger ++ rows } pk member component = rewarded w pk member component := by
  refine rewarded_append_of fun r hr => ?_
  by_contra hreward
  simp only [isReward, Bool.not_eq_false, Bool.and_eq_true, beq_iff_eq, Bool.or_eq_true] at hreward
  have := h r hr hreward.1.1.1
  rcases hreward.2 with he | he
  · exact this.1 he
  · exact this.2 he

/-- A net is one of rows that were posted. -/
theorem exists_row_of_rewarded {member : ℕ} {component : Component} (h : rewarded w pk member component ≠ 0) :
    ∃ r ∈ w.ledger, r.member = member ∧ r.component = component := by
  by_contra hnone
  refine h (Table.total_eq_zero fun r hr => ?_)
  by_contra hreward
  simp only [isReward, Bool.not_eq_false, Bool.and_eq_true, beq_iff_eq] at hreward
  exact hnone ⟨r, hr, hreward.1.1.2, hreward.1.2⟩

/-! ### A settlement of the booking -/

theorem bookingFacts_offer (h : bookingFacts site w b = .ok facts) : facts.offer = authorized site w b := by
  have hread : Outcome (bookingFacts site w b) (fun facts => facts.offer = authorized site w b) fun _ => True := by
    unfold bookingFacts
    dsimp only
    refine Outcome.ite (fun _ => trivial) fun _ => Outcome.ite (fun _ => trivial) fun _ => Outcome.ite (fun _ => trivial) fun _ => ?_
    split
    · exact trivial
    · exact rfl
  exact hread.of_eq_ok h

/-- An offer is for the customer of the booking, if it has one. -/
theorem authorized_guest {offer : OfferFacts} (h : authorized site w b = some offer) {user : User}
    (huser : b.customer = some user) : offer.beneficiary = user := by
  have hguest : ∀ u, b.mayBelongTo u = true → u = user := by
    intro u hu
    simp only [Booking.mayBelongTo, huser, Bool.or_eq_true, beq_iff_eq, Option.some.injEq] at hu
    rcases hu with hu | hu
    · cases hu
    · exact hu.symm
  unfold authorized at h
  repeat' split at h
  all_goals cases h
  · exact hguest _ (by assumption)
  · rename_i hok
    exact hguest _ (Bool.and_eq_true_iff.1 hok).2

/-- Only beneficiaries of the plan have a net after the settlement of the booking. -/
theorem Settles.placed {owner : Member} {chain : List Member} {plan : List (Share Member)} (hw : Sound digest w)
    (hb : w.booking pk = some b) {user : Option User} (h : Settles digest site w (b.identified user) facts owner chain plan rows)
    (hdrops : ∀ offer ∈ facts.offer, OnlyRewarded w pk offer.beneficiary) (hI : InPlace pk w) (member : ℕ)
    (component : Component) (hne : rewarded { w with ledger := w.ledger ++ rows } pk member component ≠ 0) :
    (member, component) ∈ rewardKeys owner.pk (chain.map (·.pk)) := by
  by_contra hout
  have hplan := map_shareKey h.planned
  -- the settlement posts nothing outside its plan
  have hkept : rewarded w pk member component ≠ 0 := by
    rw [rewarded_append fun r hr hkey => hout ?_] at hne
    · exact hne
    · obtain ⟨share, hshare, hmember, hcomponent⟩ := (h.reward r hr).share
      rw [← hplan, ← hkey, hmember, hcomponent]
      exact List.mem_map_of_mem hshare
  have howned := h.owned
  cases hoffer : facts.offer with
  | some offer =>
    obtain ⟨r, hr, rfl, rfl⟩ := exists_row_of_rewarded hkept
    obtain ⟨hcomponent, m, hm, hpk⟩ := hdrops offer hoffer r hr hkept
    rw [hoffer, beneficiary, Option.bind_some] at howned
    obtain rfl : m = owner := Option.some.inj (hm.symm.trans howned)
    refine hout ?_
    rw [← hpk, hcomponent, rewardKeys]
    cases chain <;> simp [beneficiaries, RewardKind.component]
  | none =>
    rcases hI.placed with hzero | ⟨b', hb', owner', keys, hplaced⟩
    · exact hkept (hzero member component)
    obtain rfl : b = b' := Option.some.inj (hb.symm.trans hb')
    have hnets := hplaced.nets member component (by rw [Table.key_of_get hb]; exact hkept)
    -- the chain is the one that is stored, and the owner is the guest
    have hchain := h.along
    rw [settledChain, hoffer] at hchain
    have hstored : (b.identified user).loyaltyState.referralChain = some keys := hplaced.chain
    simp only [Option.isSome_none, Bool.false_eq_true, if_false, hstored] at hchain
    have hsame : chain.map (·.pk) = keys := by
      have hbulk : Outcome (do
          raiseIf ((inBulk w keys).length ≠ keys.length ∨ owner.pk ∈ keys) (.validation "سلسلة استحقاق الحجز غير مكتملة.")
          return inBulk w keys) (fun chain => chain.map (·.pk) = keys) fun _ : Refusal => True :=
        Outcome.guard trivial fun hwhole => Outcome.of_pure (inBulk_keys (not_not.1 (not_or.1 hwhole).1))
      exact hbulk.of_eq_ok hchain
    rw [hoffer, beneficiary, Option.bind_eq_some_iff] at howned
    obtain ⟨guest, hguest, hmember⟩ := howned
    obtain ⟨m, hm, hpk, hcustomer⟩ := hplaced.guest guest hguest
    have hm' : m = owner := hw.customer_inj hm (Table.mem_of_get hmember) (hcustomer.trans (Table.key_of_get hmember).symm)
    rw [← hpk, hm', ← hsame] at hnets
    exact hout hnets

/-- The settlement of the booking itself. -/
theorem InPlace.settled {owner : Member} {chain : List Member} {plan : List (Share Member)} (hw : Sound digest w)
    (hb : w.booking pk = some b) {user : Option User} (h : Settles digest site w (b.identified user) facts owner chain plan rows)
    (hdrops : ∀ offer ∈ facts.offer, OnlyRewarded w pk offer.beneficiary) (hI : InPlace pk w) :
    InPlace pk ({ w with ledger := w.ledger ++ rows }.putState b.pk
      (settledState digest facts chain (b.identified user).loyaltyState)) := by
  obtain rfl : b.pk = pk := Table.key_of_get hb
  have hplaced := h.placed hw hb hdrops hI
  have hafter : ({ w with ledger := w.ledger ++ rows }.putState b.pk
      (settledState digest facts chain (b.identified user).loyaltyState)).booking b.pk =
        some { b with loyaltyState := settledState digest facts chain (b.identified user).loyaltyState } :=
    booking_putState hb
  refine ⟨.inr ⟨_, hafter, owner.pk, chain.map (·.pk), rfl, ?_, ?_⟩, ?_⟩
  · -- the owner is the guest
    intro guest hguest
    have hguest : b.customer = some guest := hguest
    have howned := h.owned
    cases hoffer : facts.offer with
    | some offer =>
      rw [hoffer, beneficiary, Option.bind_some] at howned
      have hauthorized := (bookingFacts_offer h.read).symm.trans hoffer
      refine ⟨owner, Table.mem_of_get howned, rfl, (Table.key_of_get howned).trans ?_⟩
      exact authorized_guest hauthorized hguest
    | none =>
      rw [hoffer, beneficiary, Option.bind_eq_some_iff] at howned
      obtain ⟨guest', hguest', hmember⟩ := howned
      refine ⟨owner, Table.mem_of_get hmember, rfl, (Table.key_of_get hmember).trans ?_⟩
      exact Option.some.inj (hguest'.symm.trans hguest)
  · intro member component hne
    exact hplaced member component hne
  · rintro b' hb' s hs hbase member component
    obtain rfl : _ = b' := Option.some.inj (hafter.symm.trans hb')
    obtain rfl : _ = s := Option.some.inj hs
    by_contra hne
    have hkey : (member, component) ∈ plan.map shareKey := by
      rw [map_shareKey h.planned]
      exact hplaced member component hne
    obtain ⟨share, hshare, hkey⟩ := List.mem_map.1 hkey
    obtain ⟨m, hm, hnet⟩ := h.nets share hshare
    have hzero : share.cents = 0 := cents_eq_zero_of_mem_plan (hbase ▸ h.planned) hshare
    obtain ⟨rfl, rfl⟩ := Prod.mk.inj hkey
    refine hne ?_
    have hnet' : rewarded { w with ledger := w.ledger ++ rows } b.pk share.member.pk share.kind.component = target m share.cents := by
      rw [← Table.key_of_get hm]
      exact hnet
    refine hnet'.trans ?_
    rw [target, hzero, amount_zero, ite_self]

/-! ### Moves -/

/-- The customer of the booking, if it is booked. -/
abbrev World.customerOf (pk : Uuid) (w : World) : Option (Option User) := (w.booking pk).map (·.customer)

theorem unmoved (hmembers : ∀ m ∈ w.members, ∃ m' ∈ w'.members, m'.pk = m.pk ∧ m'.customer = m.customer)
    (hcore : (w'.booking pk).map Booking.core = (w.booking pk).map Booking.core)
    (hnets : ∀ member component, rewarded w' pk member component = rewarded w pk member component) :
    w'.customerOf pk = w.customerOf pk ∧ (InPlace pk w → InPlace pk w') := by
  refine ⟨?_, fun hI => hI.keep hmembers hcore hnets⟩
  have hfst := congrArg (Option.map Prod.fst) hcore
  rw [Option.map_map, Option.map_map] at hfst
  exact hfst

theorem members_same : ∀ m ∈ w.members, ∃ m' ∈ w.members, m'.pk = m.pk ∧ m'.customer = m.customer :=
  fun m hm => ⟨m, hm, rfl, rfl⟩

theorem members_modify {f : Member → Member} (n : ℕ) (hf : ∀ m : Member, m.Later (f m)) :
    ∀ m ∈ w.members, ∃ m' ∈ (w.modifyMember n f).members, m'.pk = m.pk ∧ m'.customer = m.customer := by
  intro m hm
  obtain ⟨m', hm', hlater⟩ := (later_modifyMember (n := n) fun m _ _ => hf m).members m hm
  exact ⟨m', hm', hlater.pk, hlater.customer⟩

/-- A move leaves the customer and the order of the rewards, or gives the booking its first customer. -/
theorem Move.inPlace (h : Move digest site (DropsNobody pk) w w') (hw : Sound digest w) :
    (w'.customerOf pk = w.customerOf pk ∧ (InPlace pk w → InPlace pk w')) ∨
      (w.customerOf pk = some none ∧ ∃ user, w'.customerOf pk = some (some user)) := by
  have hsame : ∀ {b : Booking} {state : LoyaltyState}, b ∈ w.bookings → state.settlement = b.loyaltyState.settlement →
      state.referralChain = b.loyaltyState.referralChain →
      ((w.putState b.pk state).booking pk).map Booking.core = (w.booking pk).map Booking.core := by
    intro b state hb hsettlement hchain
    refine core_putState fun b' hb' _ hpk => ?_
    rw [hw.booking_inj hb' hb hpk]
    exact ⟨hsettlement, hchain⟩
  cases h with
  | joined hpk hcustomer _ =>
    exact .inl (unmoved (fun m hm => ⟨m, List.mem_append_left _ hm, rfl, rfl⟩) rfl fun _ _ => rfl)
  | linked => exact .inl (unmoved members_same rfl fun _ _ => rfl)
  | @attached b user hb hnone =>
    by_cases hpk : b.pk = pk
    · subst hpk
      refine .inr ⟨?_, user, ?_⟩
      · rw [World.customerOf, hw.booking_eq hb, Option.map_some, hnone]
      · have hget : (w.setCustomer b.pk user).booking b.pk =
            (w.booking b.pk).map fun b' => { b' with customer := some user } := Table.get_modify_self fun _ h => h
        rw [World.customerOf, hget, hw.booking_eq hb, Option.map_some, Option.map_some]
    · refine .inl (unmoved members_same ?_ fun _ _ => rfl)
      exact congrArg (Option.map Booking.core) (Table.get_modify_ne (fun _ h => h) (Ne.symm hpk))
  | noted hb hcore hreview =>
    exact .inl (unmoved members_same (hsame hb hcore.settlement hcore.referralChain) fun _ _ => rfl)
  | @answered pk key r => exact .inl (unmoved (members_modify pk (Member.later_answer key r)) rfl fun _ _ => rfl)
  | @settled b user facts owner chain plan rows hb h hP =>
    by_cases hpk : b.pk = pk
    · subst hpk
      have hget := hw.booking_eq hb
      refine .inl ⟨?_, InPlace.settled hw hget h (hP rfl)⟩
      show ((w.putState b.pk _).booking b.pk).map (·.customer) = (w.booking b.pk).map (·.customer)
      rw [booking_putState hget, hget, Option.map_some, Option.map_some]
    · refine .inl (unmoved members_same ?_ (rewarded_others fun r hr hreservation => ?_))
      · exact core_putState fun _ _ hpk' hpk'' => absurd (hpk''.symm.trans hpk') hpk
      · exact absurd (Option.some.inj ((h.reward r hr).reservation.symm.trans hreservation)) hpk
  | @transferred sender recipient reference value rows r hs hr h =>
    refine .inl (unmoved (members_modify sender.pk (Member.later_answer reference r)) rfl (rewarded_others fun x hx hres => ?_))
    rw [(h.events x hx).2.2] at hres
    cases hres
  | held hb hm hcustomer hnone hpos hfunded => exact .inl (unmoved members_same (hsame hb rfl rfl) fun _ _ => rfl)
  | released hb => exact .inl (unmoved members_same (hsame hb rfl rfl) fun _ _ => rfl)
  | redeemed hb hm hcustomer hhold hmember hnone hkept =>
    refine .inl (unmoved members_same (hsame hb rfl rfl) (rewarded_others fun r hr _ => ?_))
    rw [List.mem_singleton.1 hr]
    exact ⟨nofun, nofun⟩
  | restored hb hm hcustomer hr hmore hmax hkept =>
    refine .inl (unmoved members_same (hsame hb rfl rfl) (rewarded_others fun r hr _ => ?_))
    rw [List.mem_singleton.1 hr]
    exact ⟨nofun, nofun⟩
  | @withdrawn m rows hm hfree hrows hkept =>
    refine .inl (unmoved (members_modify m.pk fun x => ⟨rfl, rfl, fun _ h => h, fun _ => rfl⟩) rfl
      (rewarded_others fun r hr hreservation => ?_))
    rcases hrows with ⟨rfl, -⟩ | ⟨reference, tree, rfl, -⟩
    · cases hr
    · rw [List.mem_singleton.1 hr] at hreservation
      cases hreservation

/-- An operation that leaves the booking with its customer leaves its rewards in place. -/
theorem Leads.inPlace (h : Leads digest site (DropsNobody pk) w w') (hw : Sound digest w) (hI : InPlace pk w)
    (hcustomer : ∀ b ∈ w.booking pk, w'.customerOf pk = some b.customer) : InPlace pk w' := by
  have hrun := h.inv (I := fun v => (v.customerOf pk = w.customerOf pk ∧ InPlace pk v) ∨
      (w.customerOf pk = some none ∧ ∃ user, v.customerOf pk = some (some user))) ?_ hw (.inl ⟨rfl, hI⟩)
  · rcases hrun with ⟨-, hI'⟩ | ⟨hnone, user, huser⟩
    · exact hI'
    · obtain ⟨b, hb, hbnone⟩ := Option.map_eq_some_iff.1 hnone
      rw [hcustomer b hb, hbnone] at huser
      cases huser
  · rintro v v' hv hmove (⟨hcust, hI⟩ | ⟨hnone, user, huser⟩)
    · rcases hmove.inPlace hv with ⟨hcust', hI'⟩ | ⟨hnone, huser⟩
      · exact .inl ⟨hcust'.trans hcust, hI' hI⟩
      · exact .inr ⟨hcust ▸ hnone, huser⟩
    · rcases hmove.inPlace hv with ⟨hcust', -⟩ | ⟨hnone', -⟩
      · exact .inr ⟨hnone, user, hcust'.trans huser⟩
      · rw [huser] at hnone'
        cases hnone'

/-! ### Runs -/

theorem InPlace.step (hI : InPlace pk w) (hw : Sound digest w) {a : Action} (hcustomer : w.keepsCustomer digest pk a)
    (hdrops : w.dropsNobody digest pk a) : InPlace pk (w.step digest a) := by
  cases a with
  | operate site op =>
    have hop : Changes digest site (DropsNobody pk) w (op.perform digest site w) := perform_spec hw hdrops
    simp only [World.keepsCustomer, World.step] at hcustomer ⊢
    split
    · rename_i v hv
      rw [hv] at hcustomer
      exact Leads.inPlace (hop.of_eq_ok hv) hw hI hcustomer
    · exact hI
  | book pk' createdAt columns =>
    simp only [World.step]
    split
    · exact hI
    rename_i hnew
    have hnone : w.booking pk' = none := by simpa using hnew
    have happend : ({ w with bookings := w.bookings ++ [newBooking pk' createdAt columns] } : World).booking pk =
        (w.booking pk).or (Table.get Booking.pk [newBooking pk' createdAt columns] pk) := Table.get_append
    by_cases hpk : pk' = pk
    · subst hpk
      rw [hnone, Option.none_or] at happend
      have hzero : ∀ member component, rewarded w pk' member component = 0 := by
        rcases hI.placed with hzero | ⟨b, hb, -⟩
        · exact hzero
        · rw [hnone] at hb
          cases hb
      exact ⟨.inl hzero, fun _ _ _ _ _ => hzero⟩
    · have hother : Table.get Booking.pk [newBooking pk' createdAt columns] pk = none :=
        Table.get_eq_none.2 fun b hb => by
          rw [List.mem_singleton.1 hb]
          exact hpk
      rw [hother, Option.or_none] at happend
      exact hI.keep members_same (congrArg (Option.map Booking.core) happend) fun _ _ => rfl
  | record pk' columns =>
    refine hI.keep members_same ?_ fun _ _ => rfl
    simp only [World.keepsCustomer, World.step] at hcustomer ⊢
    have hget : ({ w with bookings := Table.modify Booking.pk w.bookings pk' columns.write } : World).booking pk =
        (w.booking pk).map fun b => if b.pk = pk' then columns.write b else b :=
      Table.get_map fun b => by split <;> rfl
    rw [hget] at hcustomer ⊢
    rw [Option.map_map]
    refine Option.map_congr fun b hb => ?_
    have hb : w.booking pk = some b := hb
    have hguest := hcustomer b hb
    rw [hb, Option.map_some, Option.map_some, Option.some.injEq] at hguest
    dsimp only [Function.comp_apply, Booking.core]
    rw [hguest]
    split <;> rfl

theorem World.Opened.inPlace (h : w.Opened) (pk : Uuid) : InPlace pk w := by
  have hzero : ∀ member component, rewarded w pk member component = 0 := by
    intro member component
    rw [rewarded, h.ledger]
    rfl
  exact ⟨.inl hzero, fun _ _ _ _ _ => hzero⟩

theorem Sound.settlesByPlan (hw : Sound digest w) : SettlesByPlan digest w := by
  intro site pk w' movements base h
  obtain ⟨hr, -⟩ | ⟨v, b, user, -, hpk, -, -, hr⟩ := (reconcile_cases anySettlement hw).of_eq_ok h
  · cases congrArg Prod.snd hr
  cases hr with
  | facts hread hs =>
    cases hs with
    | settled hset =>
      exact ⟨_, _, _, _, _, _, hread, rfl, hset.owned, hset.along, hset.planned, fun share hshare => hpk ▸ hset.nets share hshare⟩

theorem Sound.keepsUnchanged (hw : Sound digest w) : KeepsUnchanged digest w := by
  intro site pk v b facts r hread hsame h
  obtain ⟨-, hnone⟩ | ⟨v', b', user, hb', -, hledger, hleads, hr⟩ := (reconcile_cases anySettlement hw).of_eq_ok h
  · rw [hnone] at hread
    cases hread
  cases hr with
  | outside hnone =>
    rw [hnone] at hread
    cases hread
  | blocked hnone =>
    rw [hnone] at hread
    cases hread
  | facts hread' hs =>
    cases hread.symm.trans hread'
    -- the hash that is stored is the one of these facts
    obtain ⟨s, hs', rfl⟩ := Option.map_eq_some_iff.1 hsame
    have hs' : b'.loyaltyState.settlement = some s := hs'
    cases hs with
    | unchanged => exact ⟨rfl, hledger⟩
    | settled hset =>
      refine absurd ?_ hset.changed
      show b'.loyaltyState.settlement.map (·.hash) = _
      rw [hs', Option.map_some, ((Leads.sound hleads hw).settlements b' hb' s hs').1]

end

open Machine in
/-- In every run a settlement leaves every beneficiary of its plan with what the plan says, and unchanged facts post
nothing. A booking that keeps its customer, and of which no settlement under an offer drops anybody who has points for it,
leaves no points with anybody once it was settled with base zero. -/
theorem rewards_follow_the_stay {w : World} (h : w.Opened) (digest : Payload → String) (pk : Uuid) (as : List Action) :
    SettlesByPlan digest (run (World.step digest) w as) ∧ KeepsUnchanged digest (run (World.step digest) w as) ∧
      (Meets (World.step digest) (fun v a => v.keepsCustomer digest pk a ∧ v.dropsNobody digest pk a) w as →
        ClearsCancelled pk (run (World.step digest) w as)) := by
  refine ⟨(h.run as).settlesByPlan, (h.run as).keepsUnchanged, fun hok => ?_⟩
  have hinv := hok.inv (I := fun v => Sound digest v ∧ InPlace pk v)
    (fun v a hv hok => ⟨hv.1.step a, hv.2.step hv.1 hok.1 hok.2⟩) ⟨h.sound, h.inPlace pk⟩
  exact hinv.2.cleared

/-! ### A stay that was rewarded before its offer -/

/-- The hash of facts also depends on their offer. -/
def offerDigest : Payload → String
  | .facts facts => plainDigest (.facts facts) ++ ":" ++ (facts.offer.map (·.requestId)).getD ""
  | payload => plainDigest payload

/-- A site on which the offer was sent, and its phone is verified for the guest. -/
def offerSite (base : Dec) : Site :=
  { plainSite (.ok (stayFacts base)) with offerSent := fun _ _ _ => true, phoneHolder := fun _ _ _ => some 1 }

def linkPk : Uuid := ⟨"7d2e7c1a-1f60-4f0e-9a51-0d5d7c2f1c04", rfl⟩

/-- The columns of a confirmed booking of the guest with an offer. -/
def offeredTo (user : User) : SiteColumns := { confirmedBy user with offer := some ⟨"join-1", "phone", some user⟩ }

/-- The stay of a guest with an inviter is rewarded; then the guest verifies the phone of the offer, and the stay is
cancelled at last. -/
def droppedRun : List Action :=
  [.operate paidSite (.enroll (consent 1)), .operate paidSite (.enroll (consent 2)),
   .operate paidSite (.linkMembers ⟨9, 1, 2, "verified by phone", linkPk⟩), .book stayPk 5 (offeredTo 1),
   .operate paidSite (.reconcile stayPk), .operate (offerSite 1000) (.reconcile stayPk),
   .operate (offerSite 0) (.reconcile stayPk)]

/-- The inviter keeps 50 points for the cancelled stay. -/
theorem inviter_keeps_points :
    Machine.Meets (World.step offerDigest) (fun v a => v.keepsCustomer offerDigest stayPk a) emptyWorld droppedRun ∧
      rewarded (Machine.run (World.step offerDigest) emptyWorld droppedRun) stayPk 2 .directReferral = 50 ∧
      ¬ ClearsCancelled stayPk (Machine.run (World.step offerDigest) emptyWorld droppedRun) := by
  have hkept : rewarded (Machine.run (World.step offerDigest) emptyWorld droppedRun) stayPk 2 .directReferral = 50 := by
    decide +kernel
  have hbase : ∃ b ∈ (Machine.run (World.step offerDigest) emptyWorld droppedRun).booking stayPk,
      ∃ s ∈ b.loyaltyState.settlement, s.facts.base = 0 := by decide +kernel
  refine ⟨by decide +kernel, hkept, fun hclears => ?_⟩
  obtain ⟨b, hb, s, hs, hzero⟩ := hbase
  have hnone := hclears b hb s hs hzero 2 .directReferral
  rw [hkept] at hnone
  norm_num at hnone

/-- Without an offer both the guest and the inviter give their points back. -/
def cancelledRun : List Action :=
  [.operate paidSite (.enroll (consent 1)), .operate paidSite (.enroll (consent 2)),
   .operate paidSite (.linkMembers ⟨9, 1, 2, "verified by phone", linkPk⟩), .book stayPk 5 (confirmedBy 1),
   .operate paidSite (.reconcile stayPk), .operate (plainSite (.ok (stayFacts 0))) (.safeReconcile stayPk)]

theorem rewards_follow_the_stay_cancelled :
    (Machine.run (World.step plainDigest) emptyWorld cancelledRun).ledger.map (fun r => (r.member, r.credit, r.debit)) =
        [(1, 30, 0), (2, 50, 0), (1, 0, 30), (2, 0, 50)] ∧
      ClearsCancelled stayPk (Machine.run (World.step plainDigest) emptyWorld cancelledRun) :=
  ⟨by decide +kernel, (rewards_follow_the_stay emptyWorld_opened plainDigest stayPk cancelledRun).2.2 (by decide +kernel)⟩

end Apartments.Loyalty
