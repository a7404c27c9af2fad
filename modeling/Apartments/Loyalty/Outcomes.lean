import Apartments.Loyalty.Calls
import Apartments.Loyalty.Moves
import Mathlib.Data.List.Dedup

/-!
# What the operations do

Every operation from sound tables leads to its result by the moves of `Moves.lean`, and when it is refused the reason is
no constraint of the ledger. There is one lemma for each function of `Services.lean`; no later module looks into one.
-/

namespace Apartments.Loyalty

open Payments Hostaway

section
variable {digest : Payload → String} {site : Site} {P : World → Booking → Facts → Prop} {w : World} {b : Booking}
  {m : Member} {pk : Uuid} {user : User}

theorem ordinary_permission (text : String) : (Refusal.permission text).Ordinary := fun _ h => by cases h

theorem ordinary_validation (text : String) : (Refusal.validation text).Ordinary := fun _ h => by cases h

theorem ordinary_doesNotExist : Refusal.doesNotExist.Ordinary := fun _ h => by cases h

theorem ordinary_attribute : Refusal.attribute.Ordinary := fun _ h => by cases h

theorem cents_outcome (x : Dec) : Outcome (cents x) (fun n => amount n = x) Refusal.Ordinary :=
  cents_spec fun _ _ h => by cases h

theorem siteRead_spec {α : Type} (answer : Except String α) :
    Outcome (siteRead answer) (fun _ => True) Refusal.Ordinary := by
  cases answer with
  | ok a => exact trivial
  | error text => exact ordinary_validation text

/-- The operation leads to its tables. -/
abbrev Does (digest : Payload → String) (site : Site) (P : World → Booking → Facts → Prop) (w : World) {α : Type} (op : Except Refusal (World × α)) : Prop :=
  Outcome op (fun r => Leads digest site P w r.1) Refusal.Ordinary

theorem postingTransaction_spec : Outcome (postingTransaction site) (fun _ => True) Refusal.Ordinary := by
  unfold postingTransaction
  refine Outcome.guard (ordinary_validation _) fun _ => ?_
  exact Outcome.last (ordinary_validation _) trivial

/-! ### Reading -/

theorem memberFor_spec (active : Bool) : Outcome (memberFor site w user active)
    (fun m => m ∈ w.members ∧ m.customer = user ∧ (active = true → m.status = .active)) Refusal.Ordinary := by
  unfold memberFor
  refine Outcome.guard (ordinary_permission _) fun _ => ?_
  refine Outcome.guard (ordinary_permission _) fun _ => ?_
  refine Outcome.lookup (ordinary_validation _) fun m hm => ?_
  refine Outcome.guard (ordinary_validation _) fun hactive => ?_
  refine Outcome.of_pure ⟨Table.mem_of_get hm, Table.key_of_get hm, fun h => ?_⟩
  by_contra hs
  exact hactive ⟨h, hs⟩

theorem bookingOf_spec : Outcome (bookingOf site w user pk)
    (fun b => b ∈ w.bookings ∧ b.pk = pk ∧ b.customer = some user) Refusal.Ordinary := by
  unfold bookingOf
  refine Outcome.lookup ordinary_doesNotExist fun b hb => ?_
  refine Outcome.guard (ordinary_permission _) fun hcustomer => ?_
  refine Outcome.guard (ordinary_permission _) fun _ => ?_
  refine Outcome.guard (ordinary_validation _) fun _ => ?_
  refine Outcome.guard (ordinary_validation _) fun _ => ?_
  exact Outcome.of_pure ⟨Table.mem_of_get hb, Table.key_of_get hb, not_not.1 hcustomer⟩

theorem Sound.heldPoints_nonneg (hw : Sound digest w) (customer : User) : 0 ≤ heldPoints w customer := by
  refine Table.total_nonneg fun b hb _ => ?_
  rw [Booking.heldValue]
  cases hh : b.loyaltyState.hold with
  | none => exact le_rfl
  | some h => exact (hw.holds b hb h hh).le

/-- An event that has left no mark is booked by no row. -/
theorem Sound.fresh (hw : Sound digest w) {e : Event} (he : ¬ Accounted w e) (member : ℕ) (component : Component) :
    ∀ r ∈ w.ledger, r.businessKey ≠ (e.reference, member, component) := by
  intro r hr hkey
  have href : r.event.reference = e.reference := (Prod.mk.inj hkey).1
  exact he (Event.reference_injective href ▸ hw.events r hr)

theorem Sound.nextSequence_eq (hw : WellKept w.ledger) : nextSequence w = w.ledger.length + 1 := by
  rw [nextSequence, hw.max_sequence]

/-- The first posting of an operation. -/
theorem nextBranch_one (hw : WellKept w.ledger) {p : Posting} (hgroup : p.group = group w) (hbranch : p.branch = 1) :
    NextBranch w.ledger (nextSequence w) p :=
  ⟨hgroup, by rw [Sound.nextSequence_eq hw, hbranch], hbranch ▸ one_pos⟩

/-- The only posting of an operation. -/
theorem Sound.post (hw : Sound digest w) (hm : m ∈ w.members) {p : Posting} (hgroup : p.group = group w)
    (hbranch : p.branch = 1) (he : ¬ Accounted w p.event) :
    Outcome (post site w m p) (fun w' => Admitted w m p ∧ WellKept w'.ledger ∧
      ∃ tree, w' = { w with ledger := w.ledger ++ [postedRow w m tree p] } ∧ Booked w (postedRow w m tree p))
      Refusal.Ordinary :=
  post_spec hw.kept hm (hw.heldPoints_nonneg m.customer) (nextBranch_one hw.kept hgroup hbranch) (hw.fresh he m.pk p.component)

/-- A command that was not answered before does its work and keeps the answer. -/
theorem receipt_spec {key : String} {payload : Payload} {work : World → Except Refusal (World × Reply)}
    (hwork : m.commandReceipts.lookup key = none → Outcome (work w)
      (fun r => ∀ answer, Leads digest site P w (r.1.modifyMember m.pk (Member.answer key answer))) Refusal.Ordinary) :
    Does digest site P w (receipt digest w m key payload work) := by
  unfold receipt
  refine Outcome.guard (ordinary_validation _) fun _ => ?_
  cases hold : m.commandReceipts.lookup key with
  | some old => exact Outcome.guard (ordinary_validation _) fun _ => Outcome.of_pure .refl
  | none => exact Outcome.bind (hwork hold) fun r hr => Outcome.of_pure (hr ⟨digest payload, r.2⟩)

/-- Work that keeps its own books. -/
theorem receipt_of_does {key : String} {payload : Payload} {work : World → Except Refusal (World × Reply)}
    (hwork : Does digest site P w (work w)) : Does digest site P w (receipt digest w m key payload work) :=
  receipt_spec fun _ => hwork.mono fun _ hr _ => hr.tail .answered

/-! ### Points commands -/

theorem holdWork_spec {member : Member} {reference : String} {value : Dec} (hm : member ∈ w.members) (huser : member.customer = user) :
    Does digest site P w (holdWork site user member reference pk value w) := by
  unfold holdWork
  refine Outcome.bind bookingOf_spec fun b hread => ?_
  obtain ⟨hb, -, hcustomer⟩ := hread
  refine Outcome.guard (ordinary_validation _) fun hfree => ?_
  refine Outcome.guard (ordinary_validation _) fun _ => ?_
  refine Outcome.bind (cents_outcome value) fun n hn => ?_
  refine Outcome.bind (siteRead_spec _) fun total _ => ?_
  refine Outcome.guard (ordinary_validation _) fun hfunded => ?_
  have hnone : b.loyaltyState.hold = none := by
    by_contra hh
    exact hfree (.inr (.inl hh))
  simp only [not_or, not_le, not_lt] at hfunded
  exact Outcome.of_pure (.single (.held (b := b) hb hm (hcustomer.trans (congrArg some huser.symm)) hnone hfunded.1 hfunded.2.2))

theorem hold_spec {reference : String} {value : Dec} :
    Does digest site P w (hold digest site user reference pk value w) := by
  unfold hold
  refine Outcome.bind postingTransaction_spec fun _ _ => ?_
  refine Outcome.bind (memberFor_spec true) fun member hmember => ?_
  exact receipt_of_does (holdWork_spec hmember.1 hmember.2.1)

theorem releaseAllowed_spec : Outcome (releaseAllowed b) (fun _ => True) Refusal.Ordinary := by
  unfold releaseAllowed
  refine Outcome.guard (ordinary_validation _) fun _ => ?_
  exact Outcome.last (ordinary_validation _) trivial

theorem releaseWork_spec : Does digest site P w (releaseWork site user pk w) := by
  unfold releaseWork
  refine Outcome.bind bookingOf_spec fun b hread => ?_
  refine Outcome.bind releaseAllowed_spec fun _ _ => ?_
  exact Outcome.of_pure (.single (.released (b := b) hread.1))

theorem release_spec {reference : String} : Does digest site P w (release digest site user reference pk w) := by
  unfold release
  refine Outcome.bind postingTransaction_spec fun _ _ => ?_
  refine Outcome.bind (memberFor_spec true) fun member _ => ?_
  exact receipt_of_does releaseWork_spec

theorem putState_twice (w : World) (pk : Uuid) (s s' : LoyaltyState) :
    (w.putState pk s).putState pk s' = w.putState pk s' := by
  have hbookings : Table.modify Booking.pk (Table.modify Booking.pk w.bookings pk fun b => { b with loyaltyState := s }) pk
      (fun b => { b with loyaltyState := s' }) = Table.modify Booking.pk w.bookings pk fun b => { b with loyaltyState := s' } := by
    rw [Table.modify, Table.modify, Table.modify, List.map_map]
    refine List.map_congr_left fun b _ => ?_
    by_cases hb : b.pk = pk <;> simp [hb]
  rw [World.putState, World.putState, World.putState]
  exact congrArg (fun bookings => { w with bookings }) hbookings

theorem redeemWork_spec {member : Member} {reference : String} (hw : Sound digest w) (hm : member ∈ w.members)
    (huser : member.customer = user) : Does digest site P w (redeemWork site user member reference pk w) := by
  unfold redeemWork
  refine Outcome.bind bookingOf_spec fun b hread => ?_
  obtain ⟨hb, -, hcustomer⟩ := hread
  cases hr : b.loyaltyState.redemption with
  | some redemption => exact Outcome.of_pure .refl
  | none =>
    refine Outcome.lookup (ordinary_validation _) fun held hheld => ?_
    obtain ⟨hhold, hmember⟩ := Option.filter_eq_some_iff.1 hheld
    simp only [Bool.and_eq_true, beq_iff_eq] at hmember
    -- without its hold the booking is what it was, and it was not redeemed
    have hpopped : Sound digest (w.putState b.pk { b.loyaltyState with hold := none }) :=
      hw.putState hb (.of_eq rfl rfl) nofun (hw.settlements b hb) (hw.reviews b hb)
    have hfresh : ¬ Accounted (w.putState b.pk { b.loyaltyState with hold := none }) (.redeem b.pk) := by
      rintro ⟨b', hb', hpk, hsome⟩
      obtain rfl := hpopped.booking_inj hb' (putState_mem hb rfl) hpk
      simp only [hr] at hsome
      cases hsome
    refine Outcome.bind (hpopped.post hm (p := redeemPosting _ b.pk reference held.value) rfl rfl hfresh) fun posted hposted => ?_
    obtain ⟨-, hkept, tree, rfl, hbooked⟩ := hposted
    have htwice := putState_twice { w with
      ledger := w.ledger ++ [postedRow w member tree (redeemPosting w b.pk reference held.value)] } b.pk
      { b.loyaltyState with hold := none } { b.loyaltyState with hold := none, redemption := some ⟨held.value, nextSequence w, 0⟩ }
    have hmove : Move digest site P w _ :=
      .redeemed hb hm (hcustomer.trans (congrArg some huser.symm)) hhold hmember.2 hr hkept
        (hbooked.congr rfl rfl)
    rw [← htwice] at hmove
    exact Outcome.of_pure (.single hmove)

theorem redeem_spec {reference : String} (hw : Sound digest w) :
    Does digest site P w (redeem digest site user reference pk w) := by
  unfold redeem
  refine Outcome.bind postingTransaction_spec fun _ _ => ?_
  refine Outcome.bind (memberFor_spec true) fun member hmember => ?_
  exact receipt_of_does (redeemWork_spec hw hmember.1 hmember.2.1)

theorem restorePoints_spec {value : Dec} {reference : String} (hw : Sound digest w) :
    Does digest site P w (restorePoints site pk value reference w) := by
  unfold restorePoints
  refine Outcome.bind postingTransaction_spec fun _ _ => ?_
  refine Outcome.lookup ordinary_doesNotExist fun b hget => ?_
  refine Outcome.guard (ordinary_permission _) fun _ => ?_
  refine Outcome.lookup ordinary_attribute fun customer hcustomer => ?_
  refine Outcome.bind (memberFor_spec true) fun member hmember => ?_
  refine Outcome.lookup (ordinary_validation _) fun r hfilter => ?_
  refine Outcome.bind (cents_outcome value) fun target _ => ?_
  refine Outcome.guard (ordinary_validation _) fun hbounds => ?_
  have hb : b ∈ w.bookings := Table.mem_of_get hget
  have hr : b.loyaltyState.redemption = some r := (Option.filter_eq_some_iff.1 hfilter).1
  rw [not_or, not_lt, not_lt] at hbounds
  refine Outcome.ite (fun _ => Outcome.of_pure .refl) fun hne => ?_
  have hmore : r.restored < amount target := lt_of_le_of_ne hbounds.1 (Ne.symm hne)
  have hfresh : ¬ Accounted w (.restore b.pk target) := by
    rintro ⟨b', hb', hpk, r', hr', hle⟩
    obtain rfl := hw.booking_inj hb' hb hpk
    obtain rfl : r' = r := Option.some.inj (hr'.symm.trans hr)
    exact absurd hle (not_le.2 hmore)
  refine Outcome.bind (hw.post hmember.1 (p := restorePosting w b.pk r target reference) rfl rfl hfresh) fun posted hposted => ?_
  obtain ⟨-, hkept, tree, rfl, hbooked⟩ := hposted
  exact Outcome.of_pure (.single (.restored hb hmember.1 (hcustomer.trans (congrArg some hmember.2.1.symm)) hr hmore
    hbounds.2 hkept hbooked))

/-- A customer whose stays are all over holds no points. -/
theorem openStays_spec (bookings : List Booking) :
    Outcome (openStays site bookings) (fun _ => ∀ b ∈ bookings, b.loyaltyState.hold = none) Refusal.Ordinary := by
  induction bookings with
  | nil => exact fun b hb => absurd hb (List.not_mem_nil)
  | cons b bookings ih =>
    have hkeeps : Outcome (keepsMembership site b) (fun keeps => keeps = false → b.loyaltyState.hold = none)
        Refusal.Ordinary := by
      unfold keepsMembership
      refine Outcome.ite (fun _ => Outcome.of_ok nofun) fun hnone => ?_
      refine Outcome.ite (fun _ => Outcome.of_ok fun _ => not_not.1 hnone) fun _ => ?_
      refine Outcome.bind (siteRead_spec _) fun checkOut _ => ?_
      exact Outcome.of_pure fun _ => not_not.1 hnone
    unfold openStays
    refine Outcome.bind hkeeps fun keeps hhold => ?_
    refine Outcome.guard (ordinary_validation _) fun hclosed => ?_
    refine ih.mono fun _ hrest => ?_
    intro b' hb'
    rcases List.mem_cons.1 hb' with rfl | hb'
    · exact hhold (by simpa using hclosed)
    · exact hrest b' hb'

theorem withdrawWork_spec {member : Member} {reference : String} (hw : Sound digest w) (hm : member ∈ w.members)
    (huser : member.customer = user) : Does digest site P w (withdrawWork site user member reference w) := by
  unfold withdrawWork
  refine Outcome.ite (fun _ => Outcome.of_pure .refl) fun hactive => ?_
  refine Outcome.bind (openStays_spec _) fun _ hclosed => ?_
  have hfree : ∀ b ∈ w.bookings, b.customer = some member.customer → b.loyaltyState.hold = none := by
    intro b hb hcustomer
    exact hclosed b (List.mem_filter.2 ⟨hb, by simp [hcustomer, huser]⟩)
  have hfresh : ¬ Accounted w (.withdraw member.pk) := by
    rintro ⟨m, hm', hpk, hstatus⟩
    obtain rfl := hw.member_inj hm' hm hpk
    exact hactive hstatus
  by_cases hpos : 0 < Dec.quantizeEven 2 (balance w member.pk)
  · rw [if_pos hpos]
    refine Outcome.bind (hw.post hm (p := closingPosting w member.pk reference _) rfl rfl hfresh) fun closed hposted => ?_
    obtain ⟨hadmitted, hkept, tree, rfl, hbooked⟩ := hposted
    exact Outcome.of_pure (.single (.withdrawn hm hfree (.inr ⟨reference, tree, rfl, hadmitted.funded rfl⟩) hkept
      (by simpa using hbooked)))
  · rw [if_neg hpos]
    have hnil : WellKept (w.ledger ++ []) := by simpa using hw.kept
    have hmove : Move digest site P w _ := .withdrawn hm hfree (.inl ⟨rfl, not_lt.1 hpos⟩) hnil
      fun _ hr => absurd hr List.not_mem_nil
    rw [List.append_nil] at hmove
    exact Outcome.of_pure (.single hmove)

theorem withdraw_spec {reference : String} (hw : Sound digest w) :
    Does digest site P w (withdraw digest site user reference w) := by
  unfold withdraw
  refine Outcome.bind postingTransaction_spec fun _ _ => ?_
  refine Outcome.bind (memberFor_spec false) fun member hmember => ?_
  exact receipt_of_does (withdrawWork_spec hw hmember.1 hmember.2.1)

/-- The two postings of a transfer carry one event, under two components. -/
theorem transferWork_spec {sender : Member} {reference recipientNumber : String} {value : Dec} (hw : Sound digest w)
    (hs : sender ∈ w.members) (hnew : sender.commandReceipts.lookup reference = none) :
    Outcome (transferWork digest site sender reference recipientNumber value w)
      (fun r => ∀ answer, Leads digest site P w (r.1.modifyMember sender.pk (Member.answer reference answer)))
      Refusal.Ordinary := by
  unfold transferWork
  refine Outcome.lookup ordinary_doesNotExist fun recipient hfind => ?_
  refine Outcome.guard (ordinary_permission _) fun _ => ?_
  refine Outcome.guard (ordinary_validation _) fun _ => ?_
  refine Outcome.bind (cents_outcome value) fun n _ => ?_
  refine Outcome.guard (ordinary_validation _) fun hchecks => ?_
  rw [not_or, not_or, not_le, not_lt] at hchecks
  have hr : recipient ∈ w.members := List.mem_of_find?_eq_some hfind
  have hfresh : ¬ Accounted w (.transfer sender.pk reference) := by
    rintro ⟨m, hm, hpk, hsome⟩
    obtain rfl := hw.member_inj hm hs hpk
    rw [hnew] at hsome
    cases hsome
  refine Outcome.bind (hw.post hs rfl rfl hfresh) fun sent hsent => ?_
  obtain ⟨-, hkept, tree, rfl, hbooked⟩ := hsent
  refine Outcome.bind (post_spec hkept hr (hw.heldPoints_nonneg recipient.customer) ⟨rfl, ?_, two_pos⟩ ?_) fun received hreceived => ?_
  · simp only [List.length_append, List.length_singleton, Sound.nextSequence_eq hw.kept]
  · intro r hr' hkey
    rcases List.mem_append.1 hr' with hr' | hr'
    · exact hw.fresh hfresh recipient.pk .transferIn r hr' hkey
    · rw [List.mem_singleton.1 hr'] at hkey
      have hcomp : Component.transferOut = Component.transferIn := (Prod.mk.inj (Prod.mk.inj hkey).2).2
      cases hcomp
  · obtain ⟨-, hkept', tree', rfl, hbooked'⟩ := hreceived
    refine Outcome.of_pure fun answer => .single ?_
    simp only [List.append_assoc, List.singleton_append] at hkept' ⊢
    refine .transferred hs hr ⟨hchecks.1, hchecks.2.1, hchecks.2.2, ⟨_, _, rfl, rfl, rfl, rfl, rfl, rfl, rfl, rfl, rfl, rfl, rfl,
      rfl, rfl⟩, ?_, ?_, ?_, hkept'⟩ <;> intro x hx <;> rcases List.mem_pair.1 hx with rfl | rfl
    · exact ⟨rfl, rfl, rfl⟩
    · exact ⟨rfl, rfl, rfl⟩
    · rfl
    · rfl
    · exact hbooked
    · exact hbooked'.congr rfl rfl

theorem transfer_spec {reference recipientNumber : String} {value : Dec} (hw : Sound digest w) :
    Does digest site P w (transfer digest site user reference recipientNumber value w) := by
  unfold transfer
  refine Outcome.bind postingTransaction_spec fun _ _ => ?_
  refine Outcome.bind (memberFor_spec true) fun sender hsender => ?_
  exact receipt_spec fun hnew => transferWork_spec hw hsender.1 hnew

/-! ### Settling a booking -/

/-- Nobody is rewarded twice along a chain. -/
theorem ancestorsFrom_spec (rounds : ℕ) (seen : List ℕ) (inviter : Option ℕ) :
    Outcome (ancestorsFrom w rounds seen inviter)
      (fun chain => (chain.map (·.pk)).Nodup ∧ ∀ k ∈ chain.map (·.pk), k ∉ seen) Refusal.Ordinary := by
  induction rounds generalizing seen inviter with
  | zero =>
    cases inviter with
    | none => exact ⟨List.nodup_nil, by simp⟩
    | some k => exact ordinary_validation _
  | succ rounds ih =>
    cases inviter with
    | none => exact ⟨List.nodup_nil, by simp⟩
    | some k =>
      unfold ancestorsFrom
      refine Outcome.guard (ordinary_validation _) fun hseen => ?_
      refine Outcome.lookup ordinary_doesNotExist fun link _ => ?_
      refine Outcome.lookup ordinary_doesNotExist fun member hmember => ?_
      refine Outcome.bind (ih (k :: seen) link.inviter) fun rest hrest => ?_
      have hpk : member.pk = k := Table.key_of_get hmember
      refine Outcome.of_pure ⟨?_, ?_⟩
      · rw [List.map_cons, List.nodup_cons]
        refine ⟨fun hmem => hrest.2 member.pk hmem ?_, hrest.1⟩
        rw [hpk]
        exact List.mem_cons_self
      · intro n hn hmem
        rcases List.mem_cons.1 hn with rfl | hn
        · exact hseen (hpk ▸ hmem)
        · exact hrest.2 n hn (List.mem_cons_of_mem _ hmem)

theorem inBulk_sublist (w : World) (keys : List ℕ) : ((inBulk w keys).map (·.pk)).Sublist keys.dedup := by
  have hsub : ∀ ks : List ℕ, List.Sublist ((ks.filterMap w.member).map (·.pk)) ks := by
    intro ks
    induction ks with
    | nil => exact List.Sublist.refl _
    | cons k ks ih =>
      cases hm : w.member k with
      | none => simpa [hm] using ih.trans (List.sublist_cons_self k ks)
      | some m =>
        have hpk : m.pk = k := Table.key_of_get hm
        simpa [hm, hpk] using ih
  exact hsub _

theorem inBulk_nodup (w : World) (keys : List ℕ) : ((inBulk w keys).map (·.pk)).Nodup :=
  (inBulk_sublist w keys).nodup (List.nodup_dedup keys)

/-- A chain of which nobody is missing is the chain that was stored. -/
theorem inBulk_keys {keys : List ℕ} (h : (inBulk w keys).length = keys.length) : (inBulk w keys).map (·.pk) = keys :=
  ((inBulk_sublist w keys).trans (List.dedup_sublist keys)).eq_of_length (by rw [List.length_map, h])

theorem settledChain_spec {owner : Member} {facts : Facts} :
    Outcome (settledChain w b owner facts) (fun chain => (chain.map (·.pk)).Nodup) Refusal.Ordinary := by
  unfold settledChain
  split
  · exact List.nodup_nil
  · split
    · unfold ancestors
      refine Outcome.lookup ordinary_doesNotExist fun link _ => ?_
      exact (ancestorsFrom_spec _ _ _).mono fun _ h => h.1
    · refine Outcome.guard (ordinary_validation _) fun _ => ?_
      exact Outcome.of_pure (inBulk_nodup _ _)

theorem rewardPlan_spec {base : Dec} {owner : Member} {chain : List Member} :
    Outcome (rewardPlan base owner chain) (fun plan => rewardPlan base owner chain = .ok plan) Refusal.Ordinary := by
  cases h : rewardPlan base owner chain with
  | ok plan => rfl
  | error e =>
    have hspec : Outcome (rewardPlan base owner chain) (fun _ => True) Refusal.Ordinary := by
      unfold rewardPlan
      exact Outcome.bind (cents_outcome base) fun _ _ => trivial
    exact hspec.of_eq_error h

/-- The keys under which the shares of a plan are posted. -/
def shareKey (s : Share Member) : ℕ × Component := (s.member.pk, s.kind.component)

theorem component_injective : Function.Injective RewardKind.component := by
  intro a b h
  cases a <;> cases b <;> first | rfl | cases h

/-- The keys of the beneficiaries. -/
def rewardKeys (owner : ℕ) (chain : List ℕ) : List (ℕ × Component) :=
  (beneficiaries owner chain).map fun x => (x.1, x.2.component)

theorem map_shareKey {base : Dec} {owner : Member} {chain : List Member} {plan : List (Share Member)}
    (h : rewardPlan base owner chain = .ok plan) : plan.map shareKey = rewardKeys owner.pk (chain.map (·.pk)) := by
  have hmap := congrArg (List.map fun x : Member × RewardKind => (x.1.pk, x.2.component)) (map_rewardPlan h)
  rw [List.map_map] at hmap
  refine hmap.trans ?_
  cases chain with
  | nil => rfl
  | cons direct older => simp [rewardKeys, beneficiaries, Function.comp_def]

theorem shareKeys_nodup {base : Dec} {owner : Member} {chain : List Member} {plan : List (Share Member)}
    (hchain : (chain.map (·.pk)).Nodup) (h : rewardPlan base owner chain = .ok plan) : (plan.map shareKey).Nodup := by
  rw [map_shareKey h]
  exact (nodup_beneficiaries hchain).map fun x y hxy =>
    Prod.ext (Prod.mk.inj hxy).1 (component_injective (Prod.mk.inj hxy).2)

/-! ### The rounds of a settlement -/

section
variable {s : Settling} {v : World} {branch first : ℕ} {share : Share Member} {plan : List (Share Member)}

/-- The place of a round: its branch follows the rows of the group, and its share was not posted yet. -/
structure Round (s : Settling) (first : ℕ) (v : World) (branch : ℕ) (rest : List (Share Member)) : Prop where
  kept : WellKept v.ledger
  held : ∀ customer, 0 ≤ heldPoints v customer
  group : s.group = groupName first
  branch : first + branch = v.ledger.length + 1
  revision : s.revision = nextRevision s.booking.loyaltyState
  fresh : ∀ r ∈ v.ledger, r.event = .settle s.booking.pk s.revision → ∀ share ∈ rest, (r.member, r.component) ≠ shareKey share

/-- A row for the share. -/
def Rewards (v : World) (s : Settling) (plan : List (Share Member)) (share : Share Member) (r : Row) : Prop :=
  RewardRow v s.booking s.facts plan r ∧ (r.member, r.component) = shareKey share

theorem rewarded_concat {r : Row} {pk : Uuid} {member : ℕ} {component : Component}
    (hr : isReward pk member component r = true) :
    rewarded { v with ledger := v.ledger ++ [r] } pk member component =
      rewarded v pk member component + (r.credit - r.debit) := by
  rw [rewarded, rewarded, Table.total_append, Table.total_cons, if_pos hr, Table.total_nil, add_zero]

theorem postReward_spec {rest : List (Share Member)} (h : Round s first v branch rest) (hrest : share ∈ rest)
    (hshare : share ∈ plan) {member : Member} (hm : v.member share.member.pk = some member) {eventType : EventType}
    (hevent : eventType = .earn ∨ eventType = .adjust) {credit debit : Dec} (hcorrection : 0 < debit → eventType = .adjust)
    (original : Option ℕ) (reason : String) :
    Outcome (post site v member (s.posting share (branch + 1) eventType credit debit original reason))
      (fun v' => ∃ row, v' = { v with ledger := v.ledger ++ [row] } ∧ WellKept v'.ledger ∧ Rewards v s plan share row ∧
        rewarded v' s.booking.pk member.pk share.kind.component =
          rewarded v s.booking.pk member.pk share.kind.component + (credit - debit)) Refusal.Ordinary := by
  have hpk : member.pk = share.member.pk := Table.key_of_get hm
  have hfresh : ∀ r ∈ v.ledger, r.businessKey ≠
      ((Event.settle s.booking.pk s.revision).reference, member.pk, share.kind.component) := by
    intro r hr hkey
    obtain ⟨href, hkey⟩ := Prod.mk.inj hkey
    refine h.fresh r hr (Event.reference_injective href) share hrest ?_
    rw [shareKey, ← hpk]
    exact hkey
  refine (post_spec h.kept (Table.mem_of_get hm) (h.held _) ⟨h.group, ?_, Nat.succ_pos _⟩ hfresh).mono fun v' hv' => ?_
  · show first + (branch + 1) = _
    have := h.branch
    omega
  · obtain ⟨-, hkept, tree, rfl, hbooked⟩ := hv'
    refine ⟨_, rfl, hkept, ⟨⟨⟨share, hshare, hpk, rfl⟩, rfl, hevent, hcorrection, ?_, rfl, hbooked⟩, ?_⟩, ?_⟩
    · exact congrArg (Event.settle s.booking.pk) h.revision
    · exact Prod.ext hpk rfl
    · refine rewarded_concat ?_
      simp only [isReward, postedRow, Settling.posting, beq_self_eq_true, Bool.true_and, Bool.or_eq_true, beq_iff_eq]
      exact hevent

theorem settleShare_spec {rest : List (Share Member)} (h : Round s first v branch rest) (hrest : share ∈ rest)
    (hshare : share ∈ plan) :
    Outcome (settleShare site s v branch share)
      (fun r => ∃ rows, r.1 = { v with ledger := v.ledger ++ rows } ∧ r.2 = branch + rows.length ∧ WellKept r.1.ledger ∧
        (∀ x ∈ rows, Rewards v s plan share x) ∧ ∃ m, v.member share.member.pk = some m ∧
          rewarded r.1 s.booking.pk m.pk share.kind.component = target m share.cents) Refusal.Ordinary := by
  unfold settleShare
  refine Outcome.lookup ordinary_doesNotExist fun member hm => ?_
  have hone : ∀ {v' : World} {credit debit : Dec}, (∃ row, v' = { v with ledger := v.ledger ++ [row] } ∧
      WellKept v'.ledger ∧ Rewards v s plan share row ∧ rewarded v' s.booking.pk member.pk share.kind.component =
        rewarded v s.booking.pk member.pk share.kind.component + (credit - debit)) →
      rewarded v s.booking.pk member.pk share.kind.component + (credit - debit) = target member share.cents →
      ∃ rows, v' = { v with ledger := v.ledger ++ rows } ∧ branch + 1 = branch + rows.length ∧ WellKept v'.ledger ∧
        (∀ x ∈ rows, Rewards v s plan share x) ∧ ∃ m, v.member share.member.pk = some m ∧
          rewarded v' s.booking.pk m.pk share.kind.component = target m share.cents := by
    rintro v' credit debit ⟨row, hv', hkept, hrow, hnet⟩ htarget
    refine ⟨[row], hv', rfl, hkept, ?_, member, hm, hnet.trans htarget⟩
    intro x hx
    rw [List.mem_singleton.1 hx]
    exact hrow
  refine Outcome.ite (fun hlt => ?_) fun hge => Outcome.ite (fun hlt => ?_) fun hle => ?_
  · have hevent : ∀ o : Option Row, (if o.isSome then EventType.adjust else EventType.earn) = .earn ∨
        (if o.isSome then EventType.adjust else EventType.earn) = .adjust := by
      intro o
      split
      · exact .inr rfl
      · exact .inl rfl
    refine Outcome.bind (postReward_spec h hrest hshare hm (hevent _) (fun h0 => absurd h0 (lt_irrefl 0)) _ _) fun v' hv' => ?_
    refine Outcome.of_pure (hone hv' ?_)
    ring
  · refine Outcome.lookup (ordinary_validation _) fun original _ => ?_
    refine Outcome.bind (postReward_spec h hrest hshare hm (.inr rfl) (fun _ => rfl) _ _) fun v' hv' => ?_
    refine Outcome.of_pure (hone hv' ?_)
    ring
  · have heq : rewarded v s.booking.pk member.pk share.kind.component = target member share.cents :=
      le_antisymm (not_lt.1 hle) (not_lt.1 hge)
    refine Outcome.of_pure ⟨[], ?_, rfl, h.kept, fun _ hx => absurd hx List.not_mem_nil, member, hm, heq⟩
    rw [List.append_nil]

theorem RewardRow.congr {b : Booking} {facts : Facts} {r : Row} (h : RewardRow v b facts plan r) (hm : w.members = v.members)
    (hlink : currentLink w r.member = currentLink v r.member) : RewardRow w b facts plan r :=
  { h with booked := h.booked.congr hm hlink }

/-- Rows that are no rewards leave a net as it was. -/
theorem rewarded_append_of {rows : List Row} {pk : Uuid} {member : ℕ} {component : Component}
    (h : ∀ r ∈ rows, isReward pk member component r = false) :
    rewarded { v with ledger := v.ledger ++ rows } pk member component = rewarded v pk member component := by
  rw [rewarded, rewarded, Table.total_append, Table.total_eq_zero h, add_zero]

/-- Rows of other shares leave a net as it was. -/
theorem rewarded_append {rows : List Row} {pk : Uuid} {member : ℕ} {component : Component}
    (h : ∀ r ∈ rows, (r.member, r.component) ≠ (member, component)) :
    rewarded { v with ledger := v.ledger ++ rows } pk member component = rewarded v pk member component := by
  refine rewarded_append_of fun r hr => ?_
  by_contra hreward
  simp only [isReward, Bool.not_eq_false, Bool.and_eq_true, beq_iff_eq] at hreward
  exact h r hr (Prod.ext hreward.1.1.2 hreward.1.2)

/-- The round after a share. -/
theorem Round.next {rest : List (Share Member)} {rows : List Row} (h : Round s first v branch (share :: rest))
    (hnodup : ((share :: rest).map shareKey).Nodup) (hkept : WellKept (v.ledger ++ rows))
    (hrows : ∀ x ∈ rows, Rewards v s plan share x) :
    Round s first { v with ledger := v.ledger ++ rows } (branch + rows.length) rest where
  kept := hkept
  held := h.held
  group := h.group
  branch := by
    have := h.branch
    simp only [List.length_append]
    omega
  revision := h.revision
  fresh := by
    intro r hr hevent other hother
    rcases List.mem_append.1 hr with hr | hr
    · exact h.fresh r hr hevent other (List.mem_cons_of_mem _ hother)
    · rw [(hrows r hr).2]
      intro hkey
      rw [List.map_cons, List.nodup_cons] at hnodup
      exact hnodup.1 (hkey ▸ List.mem_map_of_mem hother)

theorem settleShares_spec {rest : List (Share Member)} (h : Round s first v branch rest) (hsub : ∀ x ∈ rest, x ∈ plan)
    (hnodup : (rest.map shareKey).Nodup) :
    Outcome (settleShares site s v branch rest)
      (fun r => ∃ rows, r.1 = { v with ledger := v.ledger ++ rows } ∧ WellKept r.1.ledger ∧
        (∀ x ∈ rows, RewardRow v s.booking s.facts plan x ∧ ∃ share ∈ rest, (x.member, x.component) = shareKey share) ∧
        ∀ share ∈ rest, ∃ m, v.member share.member.pk = some m ∧
          rewarded r.1 s.booking.pk m.pk share.kind.component = target m share.cents) Refusal.Ordinary := by
  induction rest generalizing v branch with
  | nil =>
    refine ⟨[], ?_, h.kept, by simp, by simp⟩
    rw [List.append_nil]
  | cons share rest ih =>
    unfold settleShares
    refine Outcome.bind (settleShare_spec h List.mem_cons_self (hsub share List.mem_cons_self)) fun r hr => ?_
    obtain ⟨v₁, branch₁⟩ := r
    obtain ⟨rows₁, rfl, rfl, hkept₁, hrows₁, hnet₁⟩ := hr
    have hround := h.next hnodup hkept₁ hrows₁
    rw [List.map_cons, List.nodup_cons] at hnodup
    refine (ih hround (fun x hx => hsub x (List.mem_cons_of_mem _ hx)) hnodup.2).mono fun r hr => ?_
    obtain ⟨rows₂, hv₂, hkept₂, hrows₂, hnet₂⟩ := hr
    refine ⟨rows₁ ++ rows₂, ?_, hkept₂, ?_, ?_⟩
    · rw [hv₂, List.append_assoc]
    · intro x hx
      rcases List.mem_append.1 hx with hx | hx
      · exact ⟨(hrows₁ x hx).1, share, List.mem_cons_self, (hrows₁ x hx).2⟩
      · obtain ⟨hrow, other, hother, hkey⟩ := hrows₂ x hx
        exact ⟨hrow.congr rfl rfl, other, List.mem_cons_of_mem _ hother, hkey⟩
    · intro other hother
      rcases List.mem_cons.1 hother with rfl | hother
      · obtain ⟨m, hm, hnet⟩ := hnet₁
        refine ⟨m, hm, ?_⟩
        rw [hv₂, rewarded_append, hnet]
        intro x hx hkey
        obtain ⟨-, third, hthird, hxkey⟩ := hrows₂ x hx
        have hpk : m.pk = other.member.pk := Table.key_of_get hm
        refine hnodup.1 ?_
        have hsame : shareKey other = shareKey third := by
          rw [← hxkey, hkey, shareKey, hpk]
        rw [hsame]
        exact List.mem_map_of_mem hthird
      · exact hnet₂ other hother

end

/-! ### Reconciling -/

/-- What `settle` ends in: nothing that is new, or a settlement. -/
inductive Settled (digest : Payload → String) (site : Site) (w : World) (b : Booking) (user : Option User) (facts : Facts) :
    World × Reconciliation → Prop
  | unchanged (h : b.loyaltyState.settlement.map (·.hash) = some (digest (.facts facts))) :
      Settled digest site w b user facts (w, .unchanged)
  | settled {owner : Member} {chain : List Member} {plan : List (Share Member)} {rows : List Row} {movements : ℕ}
      (h : Settles digest site w (b.identified user) facts owner chain plan rows) :
      Settled digest site w b user facts ({ w with ledger := w.ledger ++ rows }.putState b.pk
        (settledState digest facts chain (b.identified user).loyaltyState), .settled movements facts.base)

theorem Sound.not_settled (hw : Sound digest w) (hb : b ∈ w.bookings) (user : Option User) :
    ¬ Accounted w (.settle b.pk (nextRevision (b.identified user).loyaltyState)) := by
  rintro ⟨b', hb', hpk, x, hx, hle⟩
  obtain rfl := hw.booking_inj hb' hb hpk
  have hx : b'.loyaltyState.settlement = some x := hx
  have hnext : nextRevision (b'.identified user).loyaltyState = x.revision + 1 := by
    show (b'.loyaltyState.settlement.map (·.revision)).getD 0 + 1 = _
    rw [hx]
    rfl
  omega

theorem settle_spec (hw : Sound digest w) (hb : b ∈ w.bookings) {user : Option User} {facts : Facts}
    (hfacts : bookingFacts site w (b.identified user) = .ok facts) :
    Outcome (settle digest site w (b.identified user) facts) (Settled digest site w b user facts) Refusal.Ordinary := by
  unfold settle
  refine Outcome.lookup ordinary_doesNotExist fun owner howner => ?_
  have hchain : Outcome (settledChain w (b.identified user) owner facts)
      (fun chain => settledChain w (b.identified user) owner facts = .ok chain ∧ (chain.map (·.pk)).Nodup) Refusal.Ordinary := by
    cases h : settledChain w (b.identified user) owner facts with
    | ok chain => exact ⟨rfl, settledChain_spec.of_eq_ok h⟩
    | error e => exact settledChain_spec.of_eq_error h
  refine Outcome.bind hchain fun chain hchain => ?_
  refine Outcome.ite (fun hsame => Outcome.of_pure (.unchanged hsame)) fun hchanged => ?_
  refine Outcome.bind rewardPlan_spec fun plan hplan => ?_
  have hround : Round ⟨b.identified user, owner, chain, facts, nextRevision (b.identified user).loyaltyState, group w⟩
      (nextSequence w) w 0 plan := by
    refine ⟨hw.kept, hw.heldPoints_nonneg, rfl, Sound.nextSequence_eq hw.kept, rfl, ?_⟩
    intro r hr hevent
    exact absurd (hevent ▸ hw.events r hr) (hw.not_settled hb user)
  refine Outcome.bind (settleShares_spec hround (fun _ hx => hx) (shareKeys_nodup hchain.2 hplan)) fun r hr => ?_
  obtain ⟨v, movements⟩ := r
  obtain ⟨rows, rfl, hkept, hrows, hnets⟩ := hr
  refine Outcome.of_pure (.settled ⟨hfacts, howner, hchain.1, hplan, hchanged, hkept, fun x hx => (hrows x hx).1, ?_⟩)
  exact hnets

/-- The booking object after `attach_paid_phone_account`, and the tables that have it. -/
theorem attach_spec (digest : Payload → String) (site : Site) (P : World → Booking → Facts → Prop) (hb : b ∈ w.bookings) :
    ∃ w' b' user, attachPaidPhoneAccount site w b = (w', Booking.identified b' user) ∧ b' ∈ w'.bookings ∧ b'.pk = b.pk ∧
      b'.loyaltyState = b.loyaltyState ∧ w'.ledger = w.ledger ∧ Leads digest site P w w' := by
  unfold attachPaidPhoneAccount
  split
  · rename_i user huser
    have hnone : b.customer = none := by
      by_contra hsome
      rw [if_neg hsome] at huser
      cases huser
    exact ⟨_, { b with customer := some user }, some user, rfl, Table.mem_modify.2 ⟨b, hb, by simp⟩, rfl, rfl, rfl,
      .single (.attached hb hnone)⟩
  · exact ⟨w, b, b.loyaltyState.identityMatch, rfl, hb, rfl, rfl, rfl, .refl⟩

/-- What `reconcile` ends in from the tables `w`, for the booking object that it has in the tables `w'`. -/
inductive Reconciled (digest : Payload → String) (site : Site) (w : World) (pk : Uuid) (w' : World) (b : Booking)
    (user : Option User) : World × Reconciliation → Prop
  | outside (hread : settlement site w pk = none) : Reconciled digest site w pk w' b user (w', .outsidePilotScope)
  | blocked {blocker : String} (hread : settlement site w pk = none) : Reconciled digest site w pk w' b user
      (w'.putState b.pk { (b.identified user).loyaltyState with review := some (.blocked blocker) }, .blocked blocker)
  | facts {facts : Facts} {r : World × Reconciliation} (hread : settlement site w pk = some (w', b.identified user, facts))
      (h : Settled digest site w' b user facts r) : Reconciled digest site w pk w' b user r

theorem reconcile_cases (P : World → Booking → Facts → Prop) (hw : Sound digest w) :
    Outcome (reconcile digest site pk w) (fun r => r = (w, .disabled) ∧ settlement site w pk = none ∨
      ∃ w' b user, b ∈ w'.bookings ∧ b.pk = pk ∧ w'.ledger = w.ledger ∧ Leads digest site P w w' ∧ Reconciled digest site w pk w' b user r) Refusal.Ordinary := by
  unfold reconcile
  refine Outcome.ite (fun hdisabled => Outcome.of_ok (.inl ⟨rfl, if_pos (.inl hdisabled)⟩)) fun henabled => ?_
  have hposting : Outcome (postingTransaction site) (fun _ => site.launchAt ≠ none) Refusal.Ordinary := by
    unfold postingTransaction
    refine Outcome.guard (ordinary_validation _) fun _ => ?_
    by_cases hlaunch : site.launchAt = none
    · rw [raiseIf_of hlaunch]
      exact ordinary_validation _
    · rw [raiseIf_of_not hlaunch]
      exact hlaunch
  refine Outcome.bind hposting fun _ hlaunch => ?_
  refine Outcome.lookup ordinary_doesNotExist fun loaded hloaded => ?_
  obtain ⟨w', b, user, hattach, hb, hpk, -, hledger, hleads⟩ := attach_spec digest site P (Table.mem_of_get hloaded)
  have hpk' : b.pk = pk := hpk.trans (Table.key_of_get hloaded)
  have hread : settlement site w pk =
      (bookingFacts site w' (b.identified user)).toOption.map fun facts => (w', b.identified user, facts) := by
    have hopen : ¬ (site.enabled = false ∨ site.launchAt = none) := not_or.2 ⟨henabled, hlaunch⟩
    cases hfacts : bookingFacts site w' (b.identified user) <;>
      simp only [settlement, if_neg hopen, hloaded, Option.bind_some, hattach, hfacts, Except.toOption, Option.map]
  rw [hattach]
  refine Outcome.ite (fun houtside => ?_) fun _ => ?_
  · have hfacts : bookingFacts site w' (b.identified user) = .error "outside_pilot_scope" := if_pos houtside
    rw [hfacts] at hread
    exact Outcome.of_pure (.inr ⟨w', b, user, hb, hpk', hledger, hleads, .outside hread⟩)
  cases hfacts : bookingFacts site w' (b.identified user) with
  | error blocker =>
    rw [hfacts] at hread
    exact Outcome.of_pure (.inr ⟨w', b, user, hb, hpk', hledger, hleads, .blocked hread⟩)
  | ok facts =>
    rw [hfacts] at hread
    exact (settle_spec (hleads.sound hw) hb hfacts).mono fun r hr =>
      .inr ⟨w', b, user, hb, hpk', hledger, hleads, .facts hread hr⟩

theorem reconcile_spec (hw : Sound digest w) (hP : Permits site P (w, pk)) :
    Does digest site P w (reconcile digest site pk w) := by
  refine (reconcile_cases P hw).mono fun r hr => ?_
  obtain ⟨rfl, -⟩ | ⟨w', b, user, hb, -, -, hleads, hr⟩ := hr
  · exact .refl
  cases hr with
  | outside => exact hleads
  | blocked hread =>
    refine hleads.tail (.noted hb ⟨rfl, rfl, rfl, rfl, rfl⟩ ?_)
    rintro e ⟨⟩
  | facts hread h =>
    cases h with
    | unchanged => exact hleads
    | settled h => exact hleads.tail (.settled hb h (hP _ hread))

/-! ### Reconciling after an event -/

/-- The operation leads to its tables; there is no answer. -/
abbrev Changes (digest : Payload → String) (site : Site) (P : World → Booking → Facts → Prop) (w : World) (op : Except Refusal World) : Prop :=
  Outcome op (fun w' => Leads digest site P w w') Refusal.Ordinary

theorem changes_bind {α : Type} {op : Except Refusal (World × α)} {k : World × α → Except Refusal World}
    (h : Does digest site P w op) (hk : ∀ w' a, Leads digest site P w w' → Changes digest site P w (k (w', a))) :
    Changes digest site P w (op >>= k) :=
  Outcome.bind h fun r hr => hk r.1 r.2 hr

theorem settleBookingPoints_spec (hw : Sound digest w) : Changes digest site P w (settleBookingPoints digest site pk w) := by
  unfold settleBookingPoints
  refine Outcome.lookup ordinary_doesNotExist fun booking _ => ?_
  refine Outcome.ite (fun _ => ?_) fun _ => Outcome.of_pure .refl
  refine Outcome.lookup ordinary_attribute fun customer _ => ?_
  exact changes_bind (redeem_spec hw) fun w' _ hw' => Outcome.of_pure hw'

theorem restoreCancelledPoints_spec (hw : Sound digest w) : Changes digest site P w (restoreCancelledPoints site pk w) := by
  unfold restoreCancelledPoints
  refine Outcome.lookup ordinary_doesNotExist fun booking _ => ?_
  split
  · exact Outcome.of_pure .refl
  · refine Outcome.ite (fun _ => Outcome.of_pure .refl) fun _ => Outcome.ite (fun _ => ?_) fun _ => ?_
    · split
      · exact Outcome.of_pure .refl
      · exact changes_bind (restorePoints_spec hw) fun w' _ hw' => Outcome.of_pure hw'
    · exact changes_bind (restorePoints_spec hw) fun w' _ hw' => Outcome.of_pure hw'

theorem recordFailure_spec {e : Refusal} (he : e.Ordinary) : Changes digest site P w (recordFailure pk e w) := by
  unfold recordFailure
  refine Outcome.lookup ordinary_doesNotExist fun booking hget => ?_
  refine Outcome.of_pure (.single (.noted (b := booking) (Table.mem_of_get hget) ⟨rfl, rfl, rfl, rfl, rfl⟩ ?_))
  rintro e' ⟨⟩
  exact he

/-- A part that fails is rolled back, and its exception is kept. -/
theorem safeReconcile_spec (hw : Sound digest w) (hP : ∀ c ∈ safeReconcileCalls digest site pk w, Permits site P c) :
    Changes digest site P w (safeReconcile digest site pk w) := by
  have hfailed : ∀ {v e}, Leads digest site P w v → e.Ordinary → Changes digest site P w (recordFailure pk e v) :=
    fun hv he => (recordFailure_spec he).mono fun _ h => hv.trans h
  unfold safeReconcile
  refine Outcome.ite (fun _ => Outcome.of_ok .refl) fun hscope => Outcome.ite (fun _ => Outcome.of_ok .refl) fun henabled => ?_
  have hredeem : Changes digest site P w (settleBookingPoints digest site pk w) := settleBookingPoints_spec hw
  split
  · rename_i e he
    exact hfailed .refl (hredeem.of_eq_error he)
  · rename_i redeemed hredeemed
    have hone : Leads digest site P w redeemed := hredeem.of_eq_ok hredeemed
    have hrestore : Changes digest site P redeemed (restoreCancelledPoints site pk redeemed) :=
      restoreCancelledPoints_spec (hone.sound hw)
    split
    · rename_i e he
      exact hfailed hone (hrestore.of_eq_error he)
    · rename_i restored hrestored
      have htwo : Leads digest site P w restored := hone.trans (hrestore.of_eq_ok hrestored)
      have hcall : (restored, pk) ∈ safeReconcileCalls digest site pk w := by
        rw [safeReconcileCalls, if_neg hscope, if_neg henabled, hredeemed]
        simp only [hrestored, List.mem_singleton]
      have hreconcile : Does digest site P restored (reconcile digest site pk restored) :=
        reconcile_spec (htwo.sound hw) (hP _ hcall)
      split
      · rename_i e he
        exact hfailed htwo (hreconcile.of_eq_error he)
      · rename_i settled answer hsettled
        exact Outcome.of_ok (htwo.trans (hreconcile.of_eq_ok hsettled))

theorem reconcileAll_spec (pks : List Uuid) (hw : Sound digest w)
    (hP : ∀ c ∈ reconcileAllCalls digest site pks w, Permits site P c) :
    Changes digest site P w (reconcileAll digest site pks w) := by
  induction pks generalizing w with
  | nil => exact Outcome.of_ok .refl
  | cons pk pks ih =>
    unfold reconcileAll
    refine Outcome.bind_eq (reconcile_spec hw (hP _ List.mem_cons_self)) fun r hr hleads => ?_
    have hrest : ∀ c ∈ reconcileAllCalls digest site pks r.1, Permits site P c := by
      intro c hc
      refine hP c (List.mem_cons_of_mem _ ?_)
      rw [hr]
      exact hc
    exact (ih (hleads.sound hw) hrest).mono fun _ h => hleads.trans h

theorem applyOffers_spec (pks : List Uuid) (hw : Sound digest w)
    (hP : ∀ c ∈ applyOffersCalls digest site user pks w, Permits site P c) :
    Changes digest site P w (applyOffers digest site user pks w) := by
  induction pks generalizing w with
  | nil => exact Outcome.of_ok .refl
  | cons pk pks ih =>
    unfold applyOffers
    rw [applyOffersCalls] at hP
    refine Outcome.bind postingTransaction_spec fun _ _ => ?_
    refine Outcome.lookup ordinary_doesNotExist fun booking hbooking => ?_
    rw [hbooking, Option.any_some] at hP
    refine Outcome.ite (fun hoffer => ?_) fun hoffer => ?_
    · rw [if_pos hoffer] at hP
      refine Outcome.bind_eq (safeReconcile_spec hw fun c hc => hP c (List.mem_append_left _ hc)) fun v hv hleads => ?_
      have hrest : ∀ c ∈ applyOffersCalls digest site user pks v, Permits site P c := by
        intro c hc
        refine hP c (List.mem_append_right _ ?_)
        rw [hv]
        exact hc
      exact (ih (hleads.sound hw) hrest).mono fun _ h => hleads.trans h
    · rw [if_neg hoffer] at hP
      exact ih hw hP

theorem applyForUser_spec (hw : Sound digest w) (hP : ∀ c ∈ applyForUserCalls digest site user w, Permits site P c) :
    Changes digest site P w (applyForUser digest site user w) := by
  unfold applyForUser
  refine Outcome.ite (fun _ => Outcome.of_ok .refl) fun heligible => ?_
  rw [applyForUserCalls, if_neg heligible] at hP
  exact applyOffers_spec _ hw hP

/-! ### Joining and linking -/

theorem invitingMember_spec {E : Refusal → Prop} (hE : ∀ text, E (.validation text)) (a : Enrolment) :
    Outcome (invitingMember site w a) (fun parent => ∀ m ∈ parent, m ∈ w.members) E := by
  unfold invitingMember
  refine Outcome.ite (fun _ => ?_) fun _ => Outcome.ite (fun _ => hE _) fun _ => Outcome.of_ok (by simp)
  split
  · exact hE _
  · rename_i parent hparent
    refine Outcome.ite (fun _ => hE _) fun _ => Outcome.of_ok ?_
    rintro m ⟨⟩
    exact List.mem_of_find?_eq_some hparent

theorem parentLink_spec {E : Refusal → Prop} (hE : E .doesNotExist) (parent : Option Member) :
    Outcome (parentLink w parent) (fun linked => linked.map (·.1) = parent ∧
      ∀ p ∈ linked, currentLink w p.1.pk = some p.2) E := by
  cases parent with
  | none => exact ⟨rfl, by simp⟩
  | some member =>
    refine Outcome.lookup hE fun link hlink => Outcome.of_pure ⟨rfl, ?_⟩
    rintro p ⟨⟩
    exact hlink

theorem createReferral_spec (link : Referral) :
    Outcome (createReferral w link) (fun w' => w' = { w with referrals := w.referrals ++ [link] }) Refusal.Ordinary := by
  unfold createReferral
  refine Outcome.ite (fun _ => Outcome.of_error ?_) fun _ => Outcome.ite (fun _ => Outcome.of_error ?_) fun _ =>
    Outcome.ite (fun _ => Outcome.of_error ?_) fun _ => Outcome.of_ok rfl
  · rintro c ⟨⟩
    rfl
  · rintro c ⟨⟩
    rfl
  · rintro c hc
    cases hc
    split <;> rfl

theorem le_foldr_max {ks : List ℕ} {k : ℕ} (hk : k ∈ ks) : k ≤ ks.foldr max 0 := by
  induction ks with
  | nil => simp at hk
  | cons a ks ih =>
    rw [List.foldr_cons]
    rcases List.mem_cons.1 hk with rfl | hk
    · exact le_max_left _ _
    · exact (ih hk).trans (le_max_right _ _)

theorem lt_nextMember (hm : m ∈ w.members) : m.pk < nextMember site w := by
  have := le_foldr_max (List.mem_map_of_mem (f := Member.pk) hm)
  unfold nextMember
  omega

theorem join_spec {a : Enrolment} (hnone : w.memberOf a.user = none) : Changes digest site P w (join site w a) := by
  unfold join
  refine Outcome.bind (invitingMember_spec ordinary_validation a) fun parent hparent => ?_
  refine Outcome.guard (ordinary_validation _) fun _ => ?_
  refine Outcome.bind (parentLink_spec ordinary_doesNotExist parent) fun linked hlinked => ?_
  refine (createReferral_spec _).mono fun w' hw' => ?_
  rw [hw']
  refine .single (.joined ?_ ?_ rfl ⟨linked, fun p hp => ⟨?_, hlinked.2 p hp⟩, ?_⟩)
  · intro x hx
    exact (lt_nextMember hx).ne
  · exact fun x hx => Table.get_eq_none.1 hnone x hx
  · exact hparent _ (hlinked.1 ▸ Option.mem_map_of_mem _ hp)
  · rw [← hlinked.1, Option.map_map]
    rfl

theorem enroll_spec {a : Enrolment} (hw : Sound digest w) (hP : ∀ c ∈ enrollCalls digest site a w, Permits site P c) :
    Changes digest site P w (enroll digest site a w) := by
  unfold enroll
  refine Outcome.bind postingTransaction_spec fun _ _ => ?_
  refine Outcome.guard (ordinary_permission _) fun _ => ?_
  refine Outcome.guard (ordinary_permission _) fun _ => ?_
  refine Outcome.guard (ordinary_permission _) fun _ => ?_
  refine Outcome.guard (ordinary_validation _) fun _ => ?_
  cases hexisting : w.memberOf a.user with
  | some existing => exact Outcome.guard (ordinary_validation _) fun _ => Outcome.of_pure .refl
  | none =>
    have hjoin : Changes digest site P w (join site w a) := join_spec hexisting
    refine Outcome.bind_eq hjoin fun joined hj hjoined => ?_
    simp only [enrollCalls, hexisting, hj, List.mem_append] at hP
    refine Outcome.bind_eq (reconcileAll_spec _ (hjoined.sound hw) fun c hc => hP c (.inl hc)) fun settled hr hsettled => ?_
    have hall : Leads digest site P w settled := hjoined.trans hsettled
    refine (applyForUser_spec (hall.sound hw) fun c hc => hP c (.inr ?_)).mono fun _ h => hall.trans h
    rw [hr]
    exact hc

/-- What was settled has its chain, so that there is nothing left to freeze. -/
theorem freezeChain_spec {links : List Referral} {affected : List ℕ} (hw : Sound digest w) (hb : b ∈ w.bookings) :
    freezeChain w links affected b = .ok b := by
  unfold freezeChain
  split
  · rfl
  · split
    · rename_i hfreeze
      obtain ⟨x, hx⟩ := Option.ne_none_iff_exists'.1 hfreeze.1
      have := (hw.settlements b hb x hx).2
      rw [hfreeze.2] at this
      cases this
    · rfl

theorem mapM_of_ok {α : Type} {f : α → Except Refusal α} {l : List α} (h : ∀ a ∈ l, f a = .ok a) : l.mapM f = .ok l := by
  induction l with
  | nil => rfl
  | cons a l ih =>
    rw [List.mapM_cons, h a List.mem_cons_self, ih fun x hx => h x (List.mem_cons_of_mem _ hx)]
    rfl

theorem chainFrom_spec (links : List Referral) (rounds : ℕ) (seen : List ℕ) (member : ℕ) :
    Outcome (chainFrom links rounds seen member) (fun _ => True) Refusal.Ordinary := by
  induction rounds generalizing seen member with
  | zero => exact ordinary_validation _
  | succ rounds ih =>
    unfold chainFrom
    refine Outcome.lookup (ordinary_validation _) fun link _ => ?_
    split
    · exact Outcome.of_pure trivial
    · refine Outcome.guard (ordinary_validation _) fun _ => ?_
      exact Outcome.bind (ih _ _) fun _ _ => Outcome.of_pure trivial

theorem validatePair_spec (member inviter : ℕ) (links : List Referral) :
    Outcome (validatePair site w member inviter links) (fun _ => True) Refusal.Ordinary := by
  unfold validatePair
  refine Outcome.guard (ordinary_validation _) fun _ => ?_
  refine Outcome.lookup (ordinary_validation _) fun child _ => ?_
  refine Outcome.lookup (ordinary_validation _) fun parent _ => ?_
  refine Outcome.lookup ordinary_doesNotExist fun childMember _ => ?_
  refine Outcome.lookup ordinary_doesNotExist fun parentMember _ => ?_
  refine Outcome.guard (ordinary_validation _) fun _ => ?_
  refine Outcome.guard (ordinary_validation _) fun _ => ?_
  refine Outcome.guard (ordinary_validation _) fun _ => ?_
  refine Outcome.bind (chainFrom_spec _ _ _ _) fun chain _ => ?_
  refine Outcome.guard (ordinary_validation _) fun _ => ?_
  exact Outcome.guard (ordinary_validation _) fun _ => Outcome.of_pure trivial

theorem linkMembers_spec {q : LinkRequest} (hw : Sound digest w) : Changes digest site P w (linkMembers site w q) := by
  unfold linkMembers
  refine Outcome.guard (ordinary_permission _) fun _ => ?_
  generalize (Text.strip q.reason).length = length
  refine Outcome.guard (ordinary_validation _) fun _ => ?_
  refine Outcome.bind postingTransaction_spec fun _ _ => ?_
  split
  · exact Outcome.guard (ordinary_validation _) fun _ => Outcome.of_pure .refl
  · have hgraph : Outcome (graph w) (fun links => links = w.referrals.map (current w)) Refusal.Ordinary := by
      unfold graph
      exact Outcome.guard (ordinary_validation _) fun _ => Outcome.of_pure rfl
    refine Outcome.bind hgraph fun links hlinks => ?_
    refine Outcome.bind_eq (validatePair_spec _ _ _) fun pair hpair _ => ?_
    dsimp only
    rw [mapM_of_ok fun b hb => freezeChain_spec hw hb]
    refine Outcome.guard ?_ fun _ => ?_
    · rintro c ⟨⟩
      rfl
    refine Outcome.guard ?_ fun _ => ?_
    · rintro c ⟨⟩
      rfl
    subst hlinks
    exact Outcome.of_pure (.single (.linked ⟨_, _, hpair, rfl⟩))

end

end Apartments.Loyalty
