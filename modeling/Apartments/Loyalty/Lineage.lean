import Apartments.Loyalty.Tree

/-!
# The forest of members

`Tree` is the invariant of the links: one original link for each member, the current links placed among themselves, the
history placed in the history, and a branch of an inviter given to one member only. A member who joins is placed below the
current link of the inviter. A branch that moves keeps its links to each other, and its first link gets a new branch.
-/

namespace Apartments.Loyalty

structure Tree (w : World) : Prop where
  linked : (w.referrals.map Referral.member).Nodup
  members : ∀ k, (∃ m ∈ w.members, m.pk = k) ↔ ∃ x ∈ w.referrals, x.member = k
  revised : ∀ r ∈ w.revisions, ∃ x ∈ w.referrals, x.member = r.member
  placed : ∀ x ∈ w.links, Situated w.links x
  slots : Slots w.history
  grown : ∀ x ∈ w.history, Situated w.history x

section
variable {digest : Payload → String} {site : Site} {P : World → Booking → Facts → Prop} {w w' : World} {m : Member}
  {x y link : Referral} {q : LinkRequest} {revisions : List ReferralRevision}

theorem current_eq (w : World) (x : Referral) : current w x =
    ((Table.get ReferralRevision.member w.revisions.reverse x.member).map (revise x)).getD x := by
  unfold current Table.get
  simp only [beq_eq_decide]
  split <;> rename_i h <;> simp [h]

/-- A link that is current is that of a row. -/
theorem mem_history_of_links (hx : x ∈ w.links) : x ∈ w.history := by
  obtain ⟨y, hy, rfl⟩ := List.mem_map.1 hx
  rw [current_eq]
  cases h : Table.get ReferralRevision.member w.revisions.reverse y.member with
  | none => exact List.mem_append_left _ hy
  | some r =>
    have hr : r ∈ w.revisions := List.mem_reverse.1 (Table.mem_of_get h)
    refine List.mem_append_right _ (List.mem_map.2 ⟨r, hr, ?_⟩)
    rw [Option.map_some, Option.getD_some, ReferralRevision.link, revise, Table.key_of_get h]

theorem Tree.nodup (h : Tree w) : (w.links.map Referral.member).Nodup := by
  rw [links_members]
  exact h.linked

/-- The branches of an inviter are below the next one. -/
theorem branchOrder_lt (hx : x ∈ w.history) : x.branchOrder < nextBranch w x.inviter := by
  unfold nextBranch
  refine Nat.lt_succ_of_le (le_max_iff.2 ?_)
  rcases List.mem_append.1 hx with hx | hx
  · exact .inl (le_foldr_max (List.mem_map_of_mem (List.mem_filter.2 ⟨hx, by simp⟩)))
  · obtain ⟨r, hr, rfl⟩ := List.mem_map.1 hx
    exact .inr (le_foldr_max (List.mem_map.2 ⟨r, List.mem_filter.2 ⟨hr, by simp [ReferralRevision.link]⟩, rfl⟩))

/-- The links and the revisions are all that the invariant reads, and which members there are. -/
theorem Tree.of_eq (h : Tree w) (hreferrals : w'.referrals = w.referrals) (hrevisions : w'.revisions = w.revisions)
    (hmembers : w'.members.map Member.pk = w.members.map Member.pk) : Tree w' := by
  have hcurrent : current w' = current w := by
    funext x
    rw [current_eq, current_eq, hrevisions]
  have hlinks : w'.links = w.links := by rw [World.links, World.links, hreferrals, hcurrent]
  have hhistory : w'.history = w.history := by rw [World.history, World.history, hreferrals, hrevisions]
  refine ⟨hreferrals ▸ h.linked, fun k => ?_, ?_, by rw [hlinks]; exact h.placed, hhistory ▸ h.slots,
    by rw [hhistory]; exact h.grown⟩
  · rw [hreferrals, ← h.members k, ← List.mem_map, ← List.mem_map, hmembers]
  · rw [hreferrals, hrevisions]
    exact h.revised

/-! ### Joining -/

theorem Tree.not_linked (h : Tree w) (hpk : ∀ z ∈ w.members, z.pk ≠ m.pk) : ∀ z ∈ w.history, z.member ≠ m.pk := by
  have hreferrals : ∀ z ∈ w.referrals, z.member ≠ m.pk := by
    intro z hz hmember
    obtain ⟨m', hm', hpk'⟩ := (h.members m.pk).2 ⟨z, hz, hmember⟩
    exact hpk m' hm' hpk'
  intro z hz
  rcases List.mem_append.1 hz with hz | hz
  · exact hreferrals z hz
  · obtain ⟨r, hr, rfl⟩ := List.mem_map.1 hz
    obtain ⟨y, hy, hmember⟩ := h.revised r hr
    exact fun hm => hreferrals y hy (hmember.trans hm)

theorem Joins.member (h : Joins w m link) : link.member = m.pk := by
  obtain ⟨linked, -, rfl⟩ := h
  cases linked <;> rfl

/-- The new link has the next branch of its inviter. -/
theorem Joins.branchOrder (h : Joins w m link) : link.branchOrder = nextBranch w link.inviter := by
  obtain ⟨linked, -, rfl⟩ := h
  cases linked <;> rfl

/-- The new link is placed among the current links. -/
theorem Joins.placed (h : Joins w m link) (hw : Tree w) (hpk : ∀ z ∈ w.members, z.pk ≠ m.pk) : Situated w.links link := by
  have hmember := h.member
  obtain ⟨linked, hlinked, rfl⟩ := h
  cases linked with
  | none => exact .root rfl rfl rfl rfl
  | some p =>
    obtain ⟨parent, y⟩ := p
    obtain ⟨-, hy⟩ := hlinked _ rfl
    rw [← get_links] at hy
    have hmem : y ∈ w.links := Table.mem_of_get hy
    have hkey : y.member = parent.pk := Table.key_of_get hy
    refine .below y hmem ?_ (congrArg some hkey.symm) rfl rfl rfl
    rw [hmember]
    exact hw.not_linked hpk y (mem_history_of_links hmem)

theorem links_joined (hfree : ∀ r ∈ w.revisions, r.member ≠ link.member) :
    World.links { w with members := w.members ++ [m], referrals := w.referrals ++ [link] } = w.links ++ [link] := by
  have hnone : Table.get ReferralRevision.member w.revisions.reverse link.member = none :=
    Table.get_eq_none.2 fun r hr => hfree r (List.mem_reverse.1 hr)
  have hcurrent : current w link = link := by rw [current_eq, hnone]; rfl
  show (w.referrals ++ [link]).map (current w) = w.referrals.map (current w) ++ [link]
  rw [List.map_append, List.map_singleton, hcurrent]

/-- The rows of the history after a member has joined. -/
theorem mem_history_joined :
    x ∈ World.history { w with members := w.members ++ [m], referrals := w.referrals ++ [link] } ↔ x ∈ w.history ∨ x = link := by
  simp only [World.history, List.mem_append, List.mem_singleton]
  tauto

theorem Tree.joined (h : Tree w) (hpk : ∀ z ∈ w.members, z.pk ≠ m.pk) (hlink : Joins w m link) :
    Tree { w with members := w.members ++ [m], referrals := w.referrals ++ [link] } := by
  have hfree := h.not_linked hpk
  have hrevisions : ∀ r ∈ w.revisions, r.member ≠ link.member := fun r hr =>
    hlink.member ▸ hfree _ (List.mem_append_right _ (List.mem_map_of_mem hr))
  have hplaced := hlink.placed h hpk
  refine ⟨?_, fun k => ?_, fun r hr => ?_, fun z hz => ?_, fun z hz z' hz' hinviter hbranch => ?_, fun z hz => ?_⟩
  · rw [List.map_append, List.nodup_append']
    refine ⟨h.linked, List.nodup_singleton _, fun k hk hk' => ?_⟩
    obtain ⟨z, hz, rfl⟩ := List.mem_map.1 hk
    exact hfree z (List.mem_append_left _ hz) ((List.mem_singleton.1 hk').trans hlink.member)
  · simp only [List.mem_append, List.mem_singleton, or_and_right, exists_or, exists_eq_left, h.members k, hlink.member]
  · obtain ⟨z, hz, hmember⟩ := h.revised r hr
    exact ⟨z, List.mem_append_left _ hz, hmember⟩
  · rw [links_joined hrevisions] at hz ⊢
    rcases List.mem_append.1 hz with hz | hz
    · exact (h.placed z hz).mono fun y hy => List.mem_append_left _ hy
    · rw [List.mem_singleton.1 hz]
      exact hplaced.mono fun y hy => List.mem_append_left _ hy
  · -- a branch that is next is of no other row
    have hnext : ∀ y ∈ w.history, y.inviter = link.inviter → y.branchOrder ≠ link.branchOrder := by
      intro y hy hinviter hbranch
      have hlt := branchOrder_lt hy
      rw [hinviter, ← hlink.branchOrder] at hlt
      omega
    rcases mem_history_joined.1 hz with hold | rfl <;> rcases mem_history_joined.1 hz' with hold' | rfl
    · exact h.slots z hold z' hold' hinviter hbranch
    · exact absurd hbranch (hnext z hold hinviter)
    · exact absurd hbranch.symm (hnext z' hold' hinviter.symm)
    · rfl
  · rcases mem_history_joined.1 hz with hz | rfl
    · exact (h.grown z hz).mono fun y hy => mem_history_joined.2 (.inl hy)
    · exact hplaced.mono fun y hy => mem_history_joined.2 (.inl (mem_history_of_links hy))

/-! ### Moving a branch -/

/-- What `validate_pair` has found of the links. -/
structure Pair (l : List Referral) (q : LinkRequest) (child parent : Referral) : Prop where
  start : child ∈ l ∧ child.member = q.member
  target : parent ∈ l ∧ parent.member = q.inviter
  free : child.inviter = none
  apart : ∃ chain, chainIds q.inviter l = .ok chain ∧ q.member ∉ q.inviter :: chain

variable {child parent : Referral}

theorem validatePair_ok {l : List Referral} (h : validatePair site w q.member q.inviter l = .ok (child, parent)) :
    Pair l q child parent := by
  simp only [validatePair, bind_eq_ok, raiseIf_eq_ok] at h
  obtain ⟨_, hne, c, hc, p, hp, _, _, _, _, _, _, _, hfree', _, hfree, chain, hchain, _, hnot, _, -, h⟩ := h
  cases h
  have get : ∀ {k : ℕ} {e : Refusal} {x : Referral}, found (Table.get Referral.member l k) e = .ok x →
      Table.get Referral.member l k = some x := by
    intro k e x hx
    cases hget : Table.get Referral.member l k with
    | none => rw [hget] at hx; cases hx
    | some y =>
      rw [hget] at hx
      exact congrArg some (Except.ok.inj hx)
  exact ⟨⟨Table.mem_of_get (get hc), Table.key_of_get (get hc)⟩, ⟨Table.mem_of_get (get hp), Table.key_of_get (get hp)⟩,
    not_not.1 hfree, chain, hchain, by simpa [not_or] using ⟨hne, hnot⟩⟩

/-- The link of a member of the branch after it has moved. -/
def movedLink (w : World) (q : LinkRequest) (child parent y : Referral) : Referral :=
  (movedRevision q child parent (nextBranch w (some q.inviter)) y).link

/-- An invitee of a member of the branch is in the branch. -/
theorem Pair.closed (h : Pair w.links q child parent) (hw : Tree w) :
    ∀ y ∈ w.links, ∀ p ∈ branchOf w.links q.member, y.inviter = some p → y.member ∈ branchOf w.links q.member := by
  refine descendants_closed hw.nodup (List.nodup_singleton _) (fun k hk => ?_) (Nat.le_add_right _ _)
  rw [List.mem_singleton.1 hk, ← h.start.2]
  exact List.mem_map_of_mem h.start.1

/-- The new inviter is not in the branch. -/
theorem Pair.inviter_notMem (h : Pair w.links q child parent) (hw : Tree w) :
    q.inviter ∉ branchOf w.links q.member := by
  intro hin
  obtain ⟨chain, hchain, hnot⟩ := h.apart
  -- the chain of a member of the branch passes the start of the branch
  have hpass : ∀ k ∈ branchOf w.links q.member, ∃ keys, Forest.Chain (up w.links) k keys ∧ q.member ∈ k :: keys := by
    refine descendants_induct (fun y hy p hi hp => ?_) fun k hk => ?_
    · obtain ⟨keys, hkeys, hmem⟩ := hp
      exact ⟨p :: keys, .link (hi ▸ up_of_mem hw.nodup hy) hkeys, List.mem_cons_of_mem _ hmem⟩
    · rw [List.mem_singleton.1 hk]
      obtain ⟨keys, hkeys⟩ := Positioned.exists hw.nodup hw.placed h.start.1
      exact ⟨keys, h.start.2 ▸ hkeys.chain, List.mem_cons_self⟩
  obtain ⟨keys, hkeys, hmem⟩ := hpass _ hin
  obtain ⟨keys', hkeys'⟩ := Positioned.exists hw.nodup hw.placed h.target.1
  have hids := chainIds_of_positioned hw.nodup hw.placed hkeys'
  rw [h.target.2, hchain] at hids
  obtain rfl := hkeys.unique (h.target.2 ▸ hkeys'.chain)
  rw [← Except.ok.inj hids] at hmem
  exact hnot hmem

/-- The numbers of the branch begin with that of its start, which is no shorter. -/
theorem Pair.length_le (h : Pair w.links q child parent) (hw : Tree w) (hy : y ∈ w.links)
    (hin : y.member ∈ branchOf w.links q.member) : child.treeNumber.length ≤ y.treeNumber.length := by
  have hall : ∀ k ∈ branchOf w.links q.member, ∀ z ∈ w.links, z.member = k →
      child.treeNumber.length ≤ z.treeNumber.length := by
    refine descendants_induct (fun z hz p hi hp z' hz' hmember => ?_) fun k hk z hz hmember => ?_
    · obtain rfl := Table.eq_of_mem_of_key hw.nodup hz' hz hmember
      cases hw.placed z' hz' with
      | root hinviter => rw [hinviter] at hi; cases hi
      | below u hu _ hinviter _ _ htree =>
        have hle := hp u hu (Option.some.inj (hinviter.symm.trans hi))
        rw [htree, String.length_append, String.length_append]
        omega
    · rw [List.mem_singleton.1 hk, ← h.start.2] at hmember
      rw [Table.eq_of_mem_of_key hw.nodup hz h.start.1 hmember]
  exact hall _ hin y hy rfl

/-- The links of the branch are placed wherever they are together with the link of the new inviter. -/
theorem Pair.placed (h : Pair w.links q child parent) (hw : Tree w) {l : List Referral}
    (hl : ∀ y ∈ w.links, y.member ∈ branchOf w.links q.member → movedLink w q child parent y ∈ l) (hparent : parent ∈ l)
    (hy : y ∈ w.links) (hin : y.member ∈ branchOf w.links q.member) : Situated l (movedLink w q child parent y) := by
  have hdepth : child.depth = 0 := by
    cases hw.placed child h.start.1 with
    | root _ _ hdepth => exact hdepth
    | below u _ _ hinviter => rw [h.free] at hinviter; cases hinviter
  by_cases hstart : y.member = q.member
  · obtain rfl := Table.eq_of_mem_of_key hw.nodup hy h.start.1 (hstart.trans h.start.2.symm)
    have hrest : y.treeNumber.toList.drop y.treeNumber.length = [] := by
      rw [List.drop_eq_nil_iff, String.length_toList]
    refine .below parent hparent ?_ ?_ rfl ?_ ?_
    · show parent.member ≠ y.member
      rw [h.target.2, hstart]
      rintro heq
      obtain ⟨chain, -, hnot⟩ := h.apart
      exact hnot (heq ▸ List.mem_cons_self)
    · simp [movedLink, movedRevision, ReferralRevision.link, hstart, h.target.2]
    · simp [movedLink, movedRevision, ReferralRevision.link, hdepth]
    · simp [movedLink, movedRevision, ReferralRevision.link, hstart, hrest]
  · rcases above_of_mem_descendants hin with hk | ⟨z, hz, hmember, p, hp, hi⟩
    · exact absurd (List.mem_singleton.1 hk) hstart
    obtain rfl := Table.eq_of_mem_of_key hw.nodup hz hy hmember
    cases hw.placed z hz with
    | root hinviter => rw [hinviter] at hi; cases hi
    | below u hu hne hinviter hroot hdepth' htree =>
      have hup : u.member = p := Option.some.inj (hinviter.symm.trans hi)
      have hlen := h.length_le hw hu (hup ▸ hp)
      have hdrop : z.treeNumber.toList.drop child.treeNumber.length =
          u.treeNumber.toList.drop child.treeNumber.length ++ ("-" ++ Dec.padded 4 z.branchOrder).toList := by
        rw [htree, String.append_assoc, String.toList_append,
          List.drop_append_of_le_length (by rwa [String.length_toList])]
      refine .below _ (hl u hu (hup ▸ hp)) hne ?_ rfl ?_ ?_
      · simp [movedLink, movedRevision, ReferralRevision.link, hstart, hinviter]
      · simp only [movedLink, movedRevision, ReferralRevision.link, hdepth']
        omega
      · simp [movedLink, movedRevision, ReferralRevision.link, hstart, hdrop, String.append_assoc]

theorem mem_revisions {r : ReferralRevision}
    (hr : revisions = ((w.links.filter fun l => (branchOf w.links q.member).contains l.member).insertionSort
      fun a b => a.depth ≤ b.depth).map (movedRevision q child parent (nextBranch w (some q.inviter)))) :
    r ∈ revisions ↔ ∃ y ∈ w.links, y.member ∈ branchOf w.links q.member ∧
      movedRevision q child parent (nextBranch w (some q.inviter)) y = r := by
  rw [hr, List.mem_map]
  simp only [List.mem_insertionSort, List.mem_filter, List.contains_iff_mem, and_assoc]

/-- The link of a member after the branch has moved. -/
def relinked (w : World) (q : LinkRequest) (child parent y : Referral) : Referral :=
  if y.member ∈ branchOf w.links q.member then movedLink w q child parent y else y

/-- What a request makes of the links: those of the branch move, and the history keeps the old ones. -/
theorem Relinks.links (h : Relinks site w q revisions) (hw : Tree w) : ∃ child parent, Pair w.links q child parent ∧
    World.links { w with revisions := w.revisions ++ revisions } = w.links.map (relinked w q child parent) ∧
    ∀ x, x ∈ World.history { w with revisions := w.revisions ++ revisions } ↔
      x ∈ w.history ∨ ∃ y ∈ w.links, y.member ∈ branchOf w.links q.member ∧ movedLink w q child parent y = x := by
  obtain ⟨child, parent, hpair, hrevisions⟩ := h
  have hmem := fun r => @mem_revisions w q revisions child parent r hrevisions
  refine ⟨child, parent, validatePair_ok hpair, ?_, fun x => ?_⟩
  · -- the revision of a member of the branch is its latest one
    have hnd : (revisions.reverse.map ReferralRevision.member).Nodup := by
      have hsub : (revisions.map ReferralRevision.member).Nodup := by
        have hmembers : revisions.map ReferralRevision.member = (((w.links.filter fun l =>
            (branchOf w.links q.member).contains l.member).insertionSort fun a b => a.depth ≤ b.depth).map
            Referral.member) := by
          rw [hrevisions, List.map_map]
          rfl
        rw [hmembers]
        exact ((List.perm_insertionSort _ _).map _).nodup_iff.2 (hw.nodup.sublist (List.filter_sublist.map _))
      rw [List.map_reverse]
      exact List.nodup_reverse.2 hsub
    show w.referrals.map (current _) = (w.referrals.map (current w)).map (relinked w q child parent)
    rw [List.map_map]
    refine List.map_congr_left fun x hx => ?_
    have hcurrent : current w x ∈ w.links := List.mem_map_of_mem hx
    rw [Function.comp_apply, current_eq, List.reverse_append, Table.get_append, relinked, current_member]
    split_ifs with hin
    · have hrow := (hmem _).2 ⟨current w x, hcurrent, by rwa [current_member], rfl⟩
      have hget := Table.get_eq_of_mem hnd (List.mem_reverse.2 hrow)
      have hkey : (movedRevision q child parent (nextBranch w (some q.inviter)) (current w x)).member = x.member :=
        current_member w x
      rw [hkey] at hget
      rw [hget, Option.some_or, Option.map_some, Option.getD_some, movedLink, ReferralRevision.link, revise, hkey]
    · have hnone : Table.get ReferralRevision.member revisions.reverse x.member = none := by
        refine Table.get_eq_none.2 fun r hr hmember => ?_
        obtain ⟨y, -, hy, rfl⟩ := (hmem r).1 (List.mem_reverse.1 hr)
        exact hin (hmember ▸ hy)
      rw [hnone, Option.none_or, current_eq]
  · have hlink : x ∈ revisions.map ReferralRevision.link ↔
        ∃ y ∈ w.links, y.member ∈ branchOf w.links q.member ∧ movedLink w q child parent y = x := by
      rw [List.mem_map]
      constructor
      · rintro ⟨r, hr, rfl⟩
        obtain ⟨y, hy, hin, rfl⟩ := (hmem r).1 hr
        exact ⟨y, hy, hin, rfl⟩
      · rintro ⟨y, hy, hin, rfl⟩
        exact ⟨_, (hmem _).2 ⟨y, hy, hin, rfl⟩, rfl⟩
    rw [← hlink]
    simp only [World.history, List.map_append, List.mem_append, or_assoc]

/-- A moved link keeps its branch, or has the next branch of the new inviter. -/
theorem movedLink_slot (hw : Tree w) (hy : y ∈ w.links)
    (hin : y.member ∈ branchOf w.links q.member) :
    (movedLink w q child parent y).member = y.member ∧
    ((movedLink w q child parent y).inviter = y.inviter ∧ (movedLink w q child parent y).branchOrder = y.branchOrder ∨
      (movedLink w q child parent y).inviter = some q.inviter ∧
      (movedLink w q child parent y).branchOrder = nextBranch w (some q.inviter) ∧ y.member = q.member) := by
  refine ⟨rfl, ?_⟩
  by_cases hstart : y.member = q.member
  · exact .inr ⟨by simp [movedLink, movedRevision, ReferralRevision.link, hstart],
      by simp [movedLink, movedRevision, ReferralRevision.link, hstart], hstart⟩
  · rcases above_of_mem_descendants hin with hk | ⟨z, hz, hmember, p, hp, hi⟩
    · exact absurd (List.mem_singleton.1 hk) hstart
    obtain rfl := Table.eq_of_mem_of_key hw.nodup hz hy hmember
    exact .inl ⟨by simp [movedLink, movedRevision, ReferralRevision.link, hstart, hi],
      by simp [movedLink, movedRevision, ReferralRevision.link, hstart]⟩

theorem Tree.moved (h : Tree w) (hlinks : Relinks site w q revisions) :
    Tree { w with revisions := w.revisions ++ revisions } := by
  obtain ⟨child, parent, hpair, hcurrent, hhistory⟩ := hlinks.links h
  have hmoved : ∀ y ∈ w.links, y.member ∈ branchOf w.links q.member →
      movedLink w q child parent y ∈ w.links.map (relinked w q child parent) := fun y hy hin =>
    List.mem_map.2 ⟨y, hy, if_pos hin⟩
  have hstays : ∀ y ∈ w.links, y.member ∉ branchOf w.links q.member → y ∈ w.links.map (relinked w q child parent) :=
    fun y hy hin => List.mem_map.2 ⟨y, hy, if_neg hin⟩
  refine ⟨h.linked, h.members, fun r hr => ?_, fun z hz => ?_, fun z hz z' hz' hinviter hbranch => ?_, fun z hz => ?_⟩
  · rcases List.mem_append.1 hr with hr | hr
    · exact h.revised r hr
    · have hz := (hhistory r.link).1 (List.mem_append_right _ (List.mem_map_of_mem (List.mem_append_right _ hr)))
      have hmember : ∃ z ∈ w.referrals, z.member = r.link.member := by
        rcases hz with hz | ⟨y, hy, -, hy'⟩
        · rcases List.mem_append.1 hz with hz | hz
          · exact ⟨_, hz, rfl⟩
          · obtain ⟨r', hr', hlink⟩ := List.mem_map.1 hz
            obtain ⟨z, hz, hmember⟩ := h.revised r' hr'
            exact ⟨z, hz, hmember.trans (congrArg Referral.member hlink)⟩
        · obtain ⟨z, hz, rfl⟩ := List.mem_map.1 hy
          exact ⟨z, hz, by rw [← hy']; exact (current_member w z).symm⟩
      exact hmember
  · rw [hcurrent] at hz ⊢
    obtain ⟨y, hy, rfl⟩ := List.mem_map.1 hz
    by_cases hin : y.member ∈ branchOf w.links q.member
    · rw [relinked, if_pos hin]
      refine hpair.placed h hmoved (hstays parent hpair.target.1 ?_) hy hin
      rw [hpair.target.2]
      exact hpair.inviter_notMem h
    · rw [relinked, if_neg hin]
      cases h.placed y hy with
      | root hinviter hroot hdepth htree => exact .root hinviter hroot hdepth htree
      | below u hu hne hinviter hroot hdepth htree =>
        have hout : u.member ∉ branchOf w.links q.member := fun hu' => hin (hpair.closed h y hy _ hu' hinviter)
        exact .below u (hstays u hu hout) hne hinviter hroot hdepth htree
  · -- every link of the history has the branch of an old one, or the next branch of the new inviter
    have hslot : ∀ z, z ∈ World.history { w with revisions := w.revisions ++ revisions } →
        (∃ y ∈ w.history, y.member = z.member ∧ y.inviter = z.inviter ∧ y.branchOrder = z.branchOrder) ∨
          z.inviter = some q.inviter ∧ z.branchOrder = nextBranch w (some q.inviter) ∧ z.member = q.member := by
      intro z hz
      rcases (hhistory z).1 hz with hz | ⟨y, hy, hin, rfl⟩
      · exact .inl ⟨z, hz, rfl, rfl, rfl⟩
      · obtain ⟨hmember, hslot⟩ := movedLink_slot h hy hin
        rcases hslot with ⟨hi, hb⟩ | ⟨hi, hb, hstart⟩
        · exact .inl ⟨y, mem_history_of_links hy, hmember.symm, hi.symm, hb.symm⟩
        · exact .inr ⟨hi, hb, hmember.trans hstart⟩
    have hnext : ∀ y ∈ w.history, y.inviter = some q.inviter → y.branchOrder ≠ nextBranch w (some q.inviter) := by
      intro y hy hi hb
      have hlt := branchOrder_lt hy
      rw [hi] at hlt
      omega
    rcases hslot z hz with ⟨y, hy, hm, hi, hb⟩ | ⟨hi, hb, hm⟩ <;>
      rcases hslot z' hz' with ⟨y', hy', hm', hi', hb'⟩ | ⟨hi', hb', hm'⟩
    · rw [← hm, ← hm']
      exact h.slots y hy y' hy' (by rw [hi, hi', hinviter]) (by rw [hb, hb', hbranch])
    · exact absurd (hb.trans (hbranch.trans hb')) (hnext y hy (hi.trans (hinviter.trans hi')))
    · exact absurd (hb'.trans (hbranch.symm.trans hb)) (hnext y' hy' (hi'.trans (hinviter.symm.trans hi)))
    · exact hm.trans hm'.symm
  · rcases (hhistory z).1 hz with hz | ⟨y, hy, hin, rfl⟩
    · exact (h.grown z hz).mono fun y hy => (hhistory y).2 (.inl hy)
    · refine hpair.placed h (fun u hu hu' => (hhistory _).2 (.inr ⟨u, hu, hu', rfl⟩)) ?_ hy hin
      exact (hhistory parent).2 (.inl (mem_history_of_links hpair.target.1))

/-! ### Runs -/

theorem modifyMember_pks {n : ℕ} {f : Member → Member} (hf : ∀ m, (f m).pk = m.pk) :
    (w.modifyMember n f).members.map Member.pk = w.members.map Member.pk :=
  Table.map_key_modify fun m hm => (hf m).trans hm

/-- What a move does to the links: a member joins, a branch moves, or nothing. -/
theorem Move.links (h : Move digest site P w w') :
    (∃ m link, (∀ z ∈ w.members, z.pk ≠ m.pk) ∧ Joins w m link ∧
      w' = { w with members := w.members ++ [m], referrals := w.referrals ++ [link] }) ∨
    (∃ q revisions, Relinks site w q revisions ∧ w' = { w with revisions := w.revisions ++ revisions }) ∨
    (w'.referrals = w.referrals ∧ w'.revisions = w.revisions ∧ w'.members.map Member.pk = w.members.map Member.pk) := by
  cases h with
  | @joined m link hpk _ _ hlink => exact .inl ⟨m, link, hpk, hlink, rfl⟩
  | @linked q revisions hlinks => exact .inr (.inl ⟨q, revisions, hlinks, rfl⟩)
  | answered => exact .inr (.inr ⟨rfl, rfl, modifyMember_pks fun _ => rfl⟩)
  | transferred => exact .inr (.inr ⟨rfl, rfl, modifyMember_pks (w := w) fun _ => rfl⟩)
  | withdrawn => exact .inr (.inr ⟨rfl, rfl, modifyMember_pks (w := w) fun _ => rfl⟩)
  | attached | noted | settled | held | released | redeemed | restored => exact .inr (.inr ⟨rfl, rfl, rfl⟩)

theorem Move.tree (h : Move digest site P w w') (hw : Tree w) : Tree w' := by
  rcases h.links with ⟨m, link, hpk, hlink, rfl⟩ | ⟨q, revisions, hlinks, rfl⟩ | ⟨hreferrals, hrevisions, hmembers⟩
  · exact hw.joined hpk hlink
  · exact hw.moved hlinks
  · exact hw.of_eq hreferrals hrevisions hmembers

/-- No link is taken out of the history. -/
theorem Move.history (h : Move digest site P w w') (hx : x ∈ w.history) : x ∈ w'.history := by
  rcases h.links with ⟨m, link, -, -, rfl⟩ | ⟨q, revisions, -, rfl⟩ | ⟨hreferrals, hrevisions, -⟩
  · exact mem_history_joined.2 (.inl hx)
  · simp only [World.history, List.map_append, List.mem_append] at hx ⊢
    tauto
  · rwa [World.history, hreferrals, hrevisions]

theorem Leads.tree (h : Leads digest site P w w') (hw : Tree w) : Tree w' ∧ ∀ x ∈ w.history, x ∈ w'.history := by
  induction h with
  | refl => exact ⟨hw, fun _ hx => hx⟩
  | tail _ hmove ih => exact ⟨Move.tree hmove ih.1, fun x hx => Move.history hmove (ih.2 x hx)⟩

theorem Tree.step (hs : Sound digest w) (hw : Tree w) (a : Action) :
    Tree (w.step digest a) ∧ ∀ x ∈ w.history, x ∈ (w.step digest a).history := by
  cases a with
  | operate site op =>
    simp only [World.step]
    have hop : Changes digest site anySettlement w (op.perform digest site w) := perform_any hs
    split
    · rename_i v hv
      exact Leads.tree (hop.of_eq_ok hv) hw
    · exact ⟨hw, fun _ hx => hx⟩
  | book pk createdAt columns =>
    simp only [World.step]
    split
    · exact ⟨hw, fun _ hx => hx⟩
    · exact ⟨hw.of_eq rfl rfl rfl, fun _ hx => hx⟩
  | record pk columns => exact ⟨hw.of_eq rfl rfl rfl, fun _ hx => hx⟩

/-- Nobody has joined. -/
structure World.Founded (w : World) : Prop where
  opened : w.Opened
  members : w.members = []
  referrals : w.referrals = []
  revisions : w.revisions = []

theorem World.Founded.tree (h : w.Founded) : Tree w := by
  have hlinks : w.links = [] := by rw [World.links, h.referrals]; rfl
  have hhistory : w.history = [] := by rw [World.history, h.referrals, h.revisions]; rfl
  refine ⟨by simp [h.referrals], by simp [h.members, h.referrals], by simp [h.revisions], by simp [hlinks], ?_, by simp [hhistory]⟩
  rw [hhistory]
  exact fun x hx => by cases hx

open Machine in
theorem World.Founded.keeps (h : w.Founded) (digest : Payload → String) (as bs : List Action) :
    Tree (run (World.step digest) w as) ∧
      ∀ x ∈ (run (World.step digest) w as).history, x ∈ (run (World.step digest) w (as ++ bs)).history := by
  have hboth : ∀ cs, Sound digest (run (World.step digest) w cs) ∧ Tree (run (World.step digest) w cs) := fun cs =>
    run_inv (I := fun v => Sound digest v ∧ Tree v) (fun v a hv => ⟨hv.1.step a, (Tree.step hv.1 hv.2 a).1⟩)
      ⟨h.opened.sound, h.tree⟩ cs
  refine ⟨(hboth as).2, fun x hx => ?_⟩
  have hrun := run_inv (I := fun v => (Sound digest v ∧ Tree v) ∧ x ∈ v.history)
    (fun v a hv => ⟨⟨hv.1.1.step a, (Tree.step hv.1.1 hv.1.2 a).1⟩, (Tree.step hv.1.1 hv.1.2 a).2 x hv.2⟩)
    ⟨hboth as, hx⟩ bs
  rw [run_append]
  exact hrun.2

open Machine in
/-- In every run the current links are a forest: every member has its position, which following the inviters finds, and
`ancestors` and `chain_ids` both return its chain; the current tree numbers differ. -/
theorem links_are_a_forest (h : w.Founded) (digest : Payload → String) (as : List Action) :
    let v := run (World.step digest) w as
    (∀ x ∈ v.links, ∃ m ∈ v.members, m.pk = x.member) ∧
    (∀ m ∈ v.members, ∃ x keys, currentLink v m.pk = some x ∧ Forest.Chain (up v.links) m.pk keys ∧
      (∀ k ∈ keys, ∃ i ∈ v.members, i.pk = k) ∧ m.pk ∉ keys ∧
      x.root = keys.getLast?.getD m.pk ∧ x.depth = keys.length ∧ x.treeNumber = pathNumber v.links (m.pk :: keys).reverse ∧
      chainIds m.pk v.links = .ok keys ∧ (ancestors v m).map (·.map (·.pk)) = .ok keys) ∧
    (v.links.map (·.treeNumber)).Nodup := by
  intro v
  have hv : Tree v := (h.keeps digest as []).1
  have hsound : Sound digest v := h.opened.run as
  have hmember : ∀ x ∈ v.links, ∃ m ∈ v.members, m.pk = x.member := by
    intro x hx
    obtain ⟨y, hy, rfl⟩ := List.mem_map.1 hx
    exact (hv.members _).2 ⟨y, hy, (current_member v y).symm⟩
  refine ⟨hmember, fun m hm => ?_, ?_⟩
  · obtain ⟨y, hy, hpk⟩ := (hv.members m.pk).1 ⟨m, hm, rfl⟩
    have hx : current v y ∈ v.links := List.mem_map_of_mem hy
    have hkey : (current v y).member = m.pk := (current_member v y).trans hpk
    generalize current v y = x at hx hkey
    have hlink : currentLink v m.pk = some x := by
      rw [← get_links, ← hkey]
      exact Table.get_eq_of_mem hv.nodup hx
    obtain ⟨keys, hkeys⟩ := Positioned.exists hv.nodup hv.placed hx
    have hnd := hkeys.nodup hv.nodup hv.placed
    have hchain := hkeys.chain
    have hids := chainIds_of_positioned hv.nodup hv.placed hkeys
    have hlength := hkeys.length_lt hv.nodup hv.placed
    rw [hkey] at hnd hchain hids
    have hpresent : ∀ k ∈ keys, ∃ i ∈ v.members, i.pk = k := by
      intro k hk
      obtain ⟨i, hi⟩ := Option.isSome_iff_exists.1 (hchain.nodes k (List.mem_cons_of_mem _ hk))
      obtain ⟨z, hz, rfl, -⟩ := mem_of_up hi
      exact hmember z hz
    refine ⟨x, keys, hlink, hchain, hpresent, (List.nodup_cons.1 hnd).1, hkey ▸ hkeys.root, hkeys.depth,
      hkey ▸ hkeys.number, hids, ?_⟩
    simp only [ancestors, hlink, found, bind, Except.bind]
    refine ancestorsFrom_chain hchain hlink ?_ (fun k hk => ?_) (List.nodup_cons.1 hnd).2 fun k hk => ?_
    · rw [World.links, List.length_map] at hlength
      exact hlength.le
    · rw [List.mem_singleton]
      rintro rfl
      exact (List.nodup_cons.1 hnd).1 hk
    · obtain ⟨i, hi, rfl⟩ := hpresent k hk
      exact ⟨i, Table.get_eq_of_mem hsound.members hi, rfl⟩
  · refine List.Nodup.map_on (fun x hx y hy hnumber => ?_) (List.Nodup.of_map _ hv.nodup)
    have hsame := member_of_treeNumber hv.grown hv.slots (mem_history_of_links hx) (mem_history_of_links hy) hnumber
    exact Table.eq_of_mem_of_key hv.nodup hx hy hsame

/-- A member who joins is never refused for a tree number that is taken. -/
theorem join_treeNumber (hw : Tree w) (a : Enrolment) :
    Outcome (join site w a) (fun _ => True) fun e => e ≠ .integrity .treeNumber := by
  unfold join
  refine Outcome.bind (invitingMember_spec (by simp) a) fun parent hparent => ?_
  refine Outcome.guard (by simp) fun _ => ?_
  refine Outcome.bind (parentLink_spec (by simp) parent) fun linked hlinked => ?_
  have hpk : ∀ z ∈ w.members, z.pk ≠ (newMember (nextMember site w) a.user).pk := fun z hz => (lt_nextMember hz).ne
  have hlink : Joins w (newMember (nextMember site w) a.user)
      (newReferral (nextMember site w) (nextBranch w (parent.map (·.pk))) linked) := by
    refine ⟨linked, fun p hp => ⟨hparent _ (hlinked.1 ▸ Option.mem_map_of_mem _ hp), hlinked.2 p hp⟩, ?_⟩
    rw [← hlinked.1, Option.map_map]
    rfl
  have htree := hw.joined hpk hlink
  unfold createReferral
  refine Outcome.ite (fun htaken => ?_) fun _ => Outcome.ite (fun _ => Outcome.of_error (by simp)) fun _ =>
    Outcome.ite (fun _ => Outcome.of_error ?_) fun _ => Outcome.of_ok trivial
  · obtain ⟨z, hz, hnumber⟩ := List.any_eq_true.1 htaken
    have hold : z ∈ w.history := List.mem_append_left _ hz
    have hsame := member_of_treeNumber htree.grown htree.slots (mem_history_joined.2 (.inl hold))
      (mem_history_joined.2 (.inr rfl)) (by simpa using hnumber)
    exact absurd (hsame.trans hlink.member) (hw.not_linked hpk z hold)
  · split <;> simp

open Machine in
/-- A tree number that a row has ever given to a member is never given to another one, and no member who joins is refused
for one that is taken. -/
theorem treeNumber_of_one_member (h : w.Founded) (digest : Payload → String) (as bs : List Action) :
    (∀ x ∈ (run (World.step digest) w as).history, x ∈ (run (World.step digest) w (as ++ bs)).history) ∧
    (∀ x ∈ (run (World.step digest) w as).history, ∀ y ∈ (run (World.step digest) w (as ++ bs)).history,
      x.treeNumber = y.treeNumber → x.member = y.member) ∧
    ∀ site a, join site (run (World.step digest) w as) a ≠ .error (.integrity .treeNumber) := by
  obtain ⟨htree, hkept⟩ := h.keeps digest as bs
  have hend := (h.keeps digest (as ++ bs) []).1
  refine ⟨hkept, fun x hx y hy hnumber => member_of_treeNumber hend.grown hend.slots (hkept x hx) hy hnumber,
    fun site a hjoin => ?_⟩
  exact (join_treeNumber htree a).of_eq_error hjoin rfl

end

theorem emptyWorld_founded : emptyWorld.Founded := ⟨emptyWorld_opened, rfl, rfl, rfl⟩

def firstLinkPk : Uuid := ⟨"7d2e7c1a-1f60-4f0e-9a51-0d5d7c2f1a02", rfl⟩

def nextLinkPk : Uuid := ⟨"7d2e7c1a-1f60-4f0e-9a51-0d5d7c2f1a03", rfl⟩

/-- Three members join; the third is linked below the second, and the second with its branch below the first. -/
def linkRun : List Action :=
  [.operate paidSite (.enroll (consent 1)), .operate paidSite (.enroll (consent 2)), .operate paidSite (.enroll (consent 3)),
    .operate paidSite (.linkMembers ⟨9, 3, 2, "a link that was missing", firstLinkPk⟩),
    .operate paidSite (.linkMembers ⟨9, 2, 1, "a link that was missing", nextLinkPk⟩)]

theorem links_are_a_forest_moved :
    (Machine.run (World.step plainDigest) emptyWorld linkRun).links.map (·.treeNumber) =
      ["0001", "0001-0001", "0001-0001-0001"] ∧
    ∀ m ∈ (Machine.run (World.step plainDigest) emptyWorld linkRun).members, ∃ keys,
      chainIds m.pk (Machine.run (World.step plainDigest) emptyWorld linkRun).links = .ok keys ∧ m.pk ∉ keys := by
  refine ⟨by decide +kernel, fun m hm => ?_⟩
  obtain ⟨x, keys, -, -, -, hnot, -, -, -, hids, -⟩ :=
    (links_are_a_forest emptyWorld_founded plainDigest linkRun).2.1 m hm
  exact ⟨keys, hids, hnot⟩

theorem treeNumber_of_one_member_moved :
    (Machine.run (World.step plainDigest) emptyWorld linkRun).history.map (fun x => (x.member, x.treeNumber)) =
      [(1, "0001"), (2, "0002"), (3, "0003"), (3, "0002-0001"), (2, "0001-0001"), (3, "0001-0001-0001")] ∧
    ∀ site a, join site (Machine.run (World.step plainDigest) emptyWorld linkRun) a ≠ .error (.integrity .treeNumber) :=
  ⟨by decide +kernel, (treeNumber_of_one_member emptyWorld_founded plainDigest linkRun []).2.2⟩

end Apartments.Loyalty
