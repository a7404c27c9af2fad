import Apartments.Loyalty.Rewards
import Mathlib.Data.List.Pairwise

/-!
# An offer is paid to one account (`past_guest_offers.authorized` and `reconcile`)

The beneficiary of an offer is read anew by every settlement: from the ledger once it has an earning under the offer, and
until then from the phone that is verified at that moment.
-/

namespace Apartments.Loyalty

open Payments Hostaway

/-- The offer under which a reward was posted or corrected. -/
def Row.offer (r : Row) : Option OfferFacts :=
  if r.eventType = .earn ∨ r.eventType = .adjust then
    match r.evidence with
    | .facts facts => facts.offer
    | _ => none
  else none

/-- After an earning under an offer, all that is posted for the booking under that offer is for the same account. -/
def SameHands (r r' : Row) : Prop :=
  r.eventType = .earn → r'.reservation = r.reservation → ∀ o ∈ r.offer, ∀ o' ∈ r'.offer, o'.requestId = o.requestId →
    r'.customer = r.customer

structure OneAccount (rows : List Row) : Prop where
  paid : ∀ r ∈ rows, ∀ o ∈ r.offer, r.customer = o.beneficiary ∧ r.component = .loyalty
  hands : rows.Pairwise SameHands

section
variable {digest : Payload → String} {site : Site} {P : World → Booking → Facts → Prop} {w w' : World} {b : Booking}
  {facts : Facts} {r : Row} {rows more : List Row}

theorem offer_of_facts (hr : r.eventType = .earn ∨ r.eventType = .adjust) (he : r.evidence = .facts facts) :
    r.offer = facts.offer := by
  rw [Row.offer, if_pos hr, he]

theorem offer_of_other {e : EventType} (hr : r.eventType = e) (hearn : e ≠ .earn) (hadjust : e ≠ .adjust) : r.offer = none :=
  if_neg (by simpa [hr] using ⟨hearn, hadjust⟩)

theorem evidence_of_offer {o : OfferFacts} (h : r.offer = some o) : ∃ facts, r.evidence = .facts facts ∧ facts.offer = some o := by
  unfold Row.offer at h
  split at h
  · split at h
    · rename_i facts he
      exact ⟨facts, he, h⟩
    · cases h
  · cases h

/-- Rows without an offer say nothing about offers. -/
theorem OneAccount.append (h : OneAccount rows) (hmore : ∀ r ∈ more, r.offer = none) : OneAccount (rows ++ more) where
  paid r hr o ho := by
    rcases List.mem_append.1 hr with hr | hr
    · exact h.paid r hr o ho
    · rw [hmore r hr] at ho
      cases ho
  hands := by
    refine List.pairwise_append.2 ⟨h.hands, ?_, fun r _ r' hr' _ _ o _ o' ho' => ?_⟩
    · exact List.pairwise_of_forall_mem_list fun r hr r' _ _ _ o ho => by
        rw [hmore r hr] at ho
        cases ho
    · rw [hmore r' hr'] at ho'
      cases ho'

/-- The first earning under an offer decides for every later one. -/
theorem creditedOffer_spec (h : OneAccount w.ledger) {o : Offer} {o' : OfferFacts} (hr : r ∈ w.ledger) (hearn : r.eventType = .earn)
    (hb : r.reservation = some b.pk) (ho : r.offer = some o') (hid : o'.requestId = o.requestId) :
    ∃ credited, creditedOffer w b o = some credited ∧ credited.customer = r.customer := by
  obtain ⟨facts, hevidence, hoffer⟩ := evidence_of_offer ho
  have hcomponent : r.component = .loyalty := (h.paid r hr o' ho).2
  cases hfind : creditedOffer w b o with
  | none =>
    have hno := List.find?_eq_none.1 hfind r hr
    simp [hb, hearn, hcomponent, hevidence, hoffer, hid] at hno
  | some credited =>
    refine ⟨credited, rfl, ?_⟩
    obtain ⟨hcredited, before, after, hsplit, hbefore⟩ := List.find?_eq_some_iff_append.1 hfind
    simp only [Bool.and_eq_true, beq_iff_eq] at hcredited
    obtain ⟨⟨⟨hb', hearn'⟩, -⟩, hfacts⟩ := hcredited
    have hhands := h.hands
    rw [hsplit] at hr hhands
    rcases List.mem_append.1 hr with hr | hr
    · have hno := hbefore r hr
      simp [hb, hearn, hcomponent, hevidence, hoffer, hid] at hno
    · rcases List.mem_cons.1 hr with rfl | hr
      · rfl
      · have hlater := (List.pairwise_cons.1 (List.pairwise_append.1 hhands).2.1).1 r hr
        split at hfacts
        · rename_i facts' hevidence'
          obtain ⟨o'', ho'', hid''⟩ := (Option.any_eq_true _ _).1 hfacts
          have hoffer'' : credited.offer = some o'' := (offer_of_facts (.inl hearn') hevidence').trans ho''
          exact (hlater hearn' (hb.trans hb'.symm) o'' hoffer'' o' ho (hid.trans (beq_iff_eq.1 hid'').symm)).symm
        · cases hfacts

/-! ### Moves -/

theorem authorized_credited {offer : OfferFacts} (h : authorized site w b = some offer) :
    ∃ o, b.loyaltyState.offer = some o ∧ offer.requestId = o.requestId ∧
      ∀ credited, creditedOffer w b o = some credited → offer.beneficiary = credited.customer := by
  unfold authorized at h
  repeat' split at h
  all_goals cases h
  · rename_i _ o ho _ _ credited hcredited _
    refine ⟨o, ho, rfl, fun credited' hcredited' => ?_⟩
    rw [Option.some.inj (hcredited'.symm.trans hcredited)]
  · rename_i _ o ho _ _ hnone _ _ _ _ _
    refine ⟨o, ho, rfl, fun credited' hcredited' => ?_⟩
    rw [hnone] at hcredited'
    cases hcredited'

/-- Under an offer only the beneficiary is in the plan. -/
theorem Settles.offered {owner : Member} {chain : List Member} {plan : List (Share Member)} {offer : OfferFacts}
    (hw : Sound digest w) (h : Settles digest site w b facts owner chain plan rows) (hoffer : facts.offer = some offer)
    (hr : r ∈ rows) : r.offer = some offer ∧ r.customer = offer.beneficiary ∧ r.component = .loyalty := by
  have hrow := h.reward r hr
  refine ⟨(offer_of_facts hrow.eventType hrow.evidence).trans hoffer, ?_⟩
  have hchain := h.along
  simp only [settledChain, hoffer, Option.isSome_some, if_true, Except.ok.injEq] at hchain
  subst hchain
  obtain ⟨share, hshare, hmember, hcomponent⟩ := hrow.share
  have hplanned : (share.member, share.kind) ∈ plan.map fun s => (s.member, s.kind) := List.mem_map_of_mem hshare
  rw [map_rewardPlan h.planned, beneficiaries, List.mem_singleton, Prod.mk.injEq] at hplanned
  obtain ⟨howner, hkind⟩ := hplanned
  refine ⟨?_, by rw [hcomponent, hkind]; rfl⟩
  have howned := h.owned
  rw [hoffer, beneficiary, Option.bind_some] at howned
  obtain ⟨m, hm, hpk, hcustomer⟩ := hrow.booked.posted
  have hsame : m = owner := Table.eq_of_mem_of_key hw.members hm (Table.mem_of_get howned)
    (hpk.trans (hmember.trans (congrArg Member.pk howner)))
  rw [← hcustomer, hsame]
  exact Table.key_of_get howned

theorem Settles.oneAccount {owner : Member} {chain : List Member} {plan : List (Share Member)} (hw : Sound digest w)
    (h : Settles digest site w b facts owner chain plan rows) (hI : OneAccount w.ledger) : OneAccount (w.ledger ++ rows) := by
  cases hoffer : facts.offer with
  | none =>
    refine hI.append fun r hr => ?_
    exact (offer_of_facts (h.reward r hr).eventType (h.reward r hr).evidence).trans hoffer
  | some offer =>
    obtain ⟨o, -, hid, hcredited⟩ := authorized_credited ((bookingFacts_offer h.read).symm.trans hoffer)
    refine ⟨fun r hr o' ho' => ?_, List.pairwise_append.2 ⟨hI.hands, ?_, ?_⟩⟩
    · rcases List.mem_append.1 hr with hr | hr
      · exact hI.paid r hr o' ho'
      · obtain ⟨hrow, hpaid⟩ := h.offered hw hoffer hr
        rw [hrow] at ho'
        cases ho'
        exact hpaid
    · -- one settlement posts for one account
      refine List.pairwise_of_forall_mem_list fun r hr r' hr' _ _ _ _ _ _ _ => ?_
      exact (h.offered hw hoffer hr').2.1.trans (h.offered hw hoffer hr).2.1.symm
    · -- an earning that was posted before names the beneficiary
      intro r hr r' hr' hearn hreservation o₁ ho₁ o₂ ho₂ hsame
      obtain ⟨hrow, hpaid, -⟩ := h.offered hw hoffer hr'
      rw [hrow] at ho₂
      cases ho₂
      have hb : r.reservation = some b.pk := hreservation.symm.trans (h.reward r' hr').reservation
      obtain ⟨credited, hfound, hcustomer⟩ := creditedOffer_spec hI hr hearn hb ho₁ (hsame.symm.trans hid)
      rw [hpaid, hcredited credited hfound, hcustomer]

/-- Every other move posts rows without an offer, or none. -/
theorem Move.oneAccount (h : Move digest site P w w') (hw : Sound digest w) (hI : OneAccount w.ledger) : OneAccount w'.ledger := by
  cases h with
  | joined | linked | attached | noted | answered | held | released => exact hI
  | settled hb h hP => exact h.oneAccount hw hI
  | transferred hs hr h =>
    exact hI.append fun x hx => offer_of_other (h.events x hx).2.1 (by decide) (by decide)
  | redeemed =>
    refine hI.append fun x hx => ?_
    rw [List.mem_singleton.1 hx]
    exact offer_of_other (show _ = EventType.redeem from rfl) (by decide) (by decide)
  | restored =>
    refine hI.append fun x hx => ?_
    rw [List.mem_singleton.1 hx]
    exact offer_of_other (show _ = EventType.restore from rfl) (by decide) (by decide)
  | withdrawn hm hfree hrows =>
    refine hI.append fun x hx => ?_
    rcases hrows with ⟨rfl, -⟩ | ⟨reference, tree, rfl, -⟩
    · cases hx
    · rw [List.mem_singleton.1 hx]
      exact offer_of_other (show _ = EventType.withdraw from rfl) (by decide) (by decide)

theorem OneAccount.step (hw : Sound digest w) (hI : OneAccount w.ledger) (a : Action) : OneAccount (w.step digest a).ledger := by
  cases a with
  | operate site op =>
    simp only [World.step]
    split
    · rename_i v hv
      have hop : Changes digest site anySettlement w (op.perform digest site w) := perform_any hw
      exact (hop.of_eq_ok hv).inv (I := fun v => OneAccount v.ledger) (fun _ _ hv hmove hI => hmove.oneAccount hv hI) hw hI
    · exact hI
  | book pk createdAt columns =>
    simp only [World.step]
    split <;> exact hI
  | record pk columns => exact hI

end

open Machine in
/-- In every run, what is posted under an offer is a reward of its beneficiary alone, and once the offer has earned, all that
is posted for the booking under it goes to the account of that earning. -/
theorem offers_pay_one_account {w : World} (h : w.Opened) (digest : Payload → String) (as : List Action) :
    (∀ r ∈ (run (World.step digest) w as).ledger, ∀ o ∈ r.offer, r.customer = o.beneficiary ∧ r.component = .loyalty) ∧
      (run (World.step digest) w as).ledger.Pairwise SameHands := by
  have hopened : OneAccount w.ledger := by
    rw [h.ledger]
    exact ⟨fun _ hr => absurd hr List.not_mem_nil, .nil⟩
  have hrun := run_inv (I := fun v => Sound digest v ∧ OneAccount v.ledger)
    (fun v a hv => ⟨hv.1.step a, hv.2.step hv.1 a⟩) ⟨h.sound, hopened⟩ as
  exact ⟨hrun.2.paid, hrun.2.hands⟩

/-- The phone of the offer is verified for another member after the offer has earned. -/
def portedRun : List Action :=
  [.operate paidSite (.enroll (consent 1)), .operate paidSite (.enroll (consent 2)),
   .book stayPk 5 { confirmedBy 1 with customer := none, offer := some ⟨"join-1", "phone", none⟩ },
   .operate (offerSite 1000) (.reconcile stayPk),
   .operate { offerSite 500 with phoneHolder := fun _ _ _ => some 2 } (.reconcile stayPk)]

/-- The correction is for the member who was paid. -/
theorem offers_pay_one_account_ported :
    (Machine.run (World.step offerDigest) emptyWorld portedRun).ledger.map (fun r => (r.customer, r.credit, r.debit)) =
        [(1, 30, 0), (1, 0, 15)] ∧
      (Machine.run (World.step offerDigest) emptyWorld portedRun).ledger.Pairwise SameHands :=
  ⟨by decide +kernel, (offers_pay_one_account emptyWorld_opened offerDigest portedRun).2⟩

end Apartments.Loyalty
