import Apartments.Lib.Forest
import Apartments.Loyalty.Chain

/-!
# The referral tree in every run

A link states its place four times: by its inviter, its root, its depth and its tree number. `Situated` says that the four
agree with a link of a table that the link is below. The current links are placed among themselves, and so they are a
forest; every link that was ever stored is placed among all of these, and so a tree number never denotes two members.
-/

namespace Apartments.Loyalty

/-- The link that a revision states. -/
def ReferralRevision.link (r : ReferralRevision) : Referral :=
  ⟨r.member, some r.inviter, r.root, r.treeNumber, r.depth, r.branchOrder⟩

/-- The links of all rows, the original and the revised ones. -/
def World.history (w : World) : List Referral := w.referrals ++ w.revisions.map ReferralRevision.link

/-- The current links. -/
def World.links (w : World) : List Referral := w.referrals.map (current w)

/-! ### Tables of placed links -/

/-- The link is a root, or its place is below a link of the table. -/
inductive Situated (l : List Referral) (x : Referral) : Prop
  | root : x.inviter = none → x.root = x.member → x.depth = 0 → x.treeNumber = Dec.padded 4 x.branchOrder → Situated l x
  | below (y : Referral) : y ∈ l → y.member ≠ x.member → x.inviter = some y.member → x.root = y.root →
      x.depth = y.depth + 1 → x.treeNumber = y.treeNumber ++ "-" ++ Dec.padded 4 x.branchOrder → Situated l x

/-- A branch of an inviter is of one member. -/
def Slots (l : List Referral) : Prop :=
  ∀ x ∈ l, ∀ y ∈ l, x.inviter = y.inviter → x.branchOrder = y.branchOrder → x.member = y.member

section
variable {l l' : List Referral} {x y : Referral}

theorem Situated.mono (h : Situated l x) (hl : ∀ y ∈ l, y ∈ l') : Situated l' x := by
  cases h with
  | root hinviter hroot hdepth htree => exact .root hinviter hroot hdepth htree
  | below y hy hne hinviter hroot hdepth htree => exact .below y (hl y hy) hne hinviter hroot hdepth htree

/-- The number of a link that is below another one has a dash. -/
theorem padded_ne {a : String} {m n : ℕ} : Dec.padded 4 m ≠ a ++ "-" ++ Dec.padded 4 n :=
  Keys.ne_of_notMem (c := '-') rfl (Dec.notMem_padded rfl 4 m)

theorem padded_split {a b : String} {m n : ℕ} (h : a ++ "-" ++ Dec.padded 4 m = b ++ "-" ++ Dec.padded 4 n) :
    a = b ∧ m = n := by
  obtain ⟨hab, hmn⟩ := Keys.split_last_inj (c := '-') rfl (Dec.notMem_padded rfl 4 m) (Dec.notMem_padded rfl 4 n) h
  exact ⟨hab, Dec.padded_inj hmn⟩

/-- Links with one number are of one member. -/
theorem member_of_treeNumber (hl : ∀ x ∈ l, Situated l x) (hs : Slots l) (hx : x ∈ l) (hy : y ∈ l)
    (h : x.treeNumber = y.treeNumber) : x.member = y.member := by
  induction hn : x.depth generalizing x y with
  | zero =>
    cases hl x hx with
    | below z _ _ _ _ hdepth => omega
    | root hinviter _ _ htree =>
      cases hl y hy with
      | root hinviter' _ _ htree' =>
        exact hs x hx y hy (hinviter.trans hinviter'.symm) (Dec.padded_inj (htree.symm.trans (h.trans htree')))
      | below z _ _ _ _ _ htree' => exact absurd (htree.symm.trans (h.trans htree')) padded_ne
  | succ n ih =>
    cases hl x hx with
    | root _ _ hdepth => omega
    | below u hu _ hinviter _ hdepth htree =>
      cases hl y hy with
      | root _ _ _ htree' => exact absurd (htree'.symm.trans (h.symm.trans htree)) padded_ne
      | below v hv _ hinviter' _ _ htree' =>
        obtain ⟨huv, hbranch⟩ := padded_split (htree.symm.trans (h.trans htree'))
        have hmember := ih hu hv huv (by omega)
        exact hs x hx y hy (by rw [hinviter, hinviter', hmember]) hbranch

/-! ### Following the inviters -/

/-- The inviter of a member of the table. -/
def up (l : List Referral) (member : ℕ) : Option (Option ℕ) := (Table.get Referral.member l member).map (·.inviter)

/-- The tree number that a path from a root has. -/
def pathNumber (l : List Referral) (path : List ℕ) : String :=
  "-".intercalate ((path.filterMap (Table.get Referral.member l)).map fun x => Dec.padded 4 x.branchOrder)

theorem up_of_mem (hnd : (l.map Referral.member).Nodup) (hx : x ∈ l) : up l x.member = some x.inviter := by
  rw [up, Table.get_eq_of_mem hnd hx, Option.map_some]

theorem mem_of_up {k : ℕ} {i : Option ℕ} (h : up l k = some i) : ∃ x ∈ l, x.member = k ∧ x.inviter = i := by
  obtain ⟨x, hx, hi⟩ := Option.map_eq_some_iff.1 h
  exact ⟨x, Table.mem_of_get hx, Table.key_of_get hx, hi⟩

def rank (l : List Referral) (member : ℕ) : ℕ := ((Table.get Referral.member l member).map (·.depth)).getD 0

theorem rank_of_mem (hnd : (l.map Referral.member).Nodup) (hx : x ∈ l) : rank l x.member = x.depth := by
  rw [rank, Table.get_eq_of_mem hnd hx, Option.map_some, Option.getD_some]

/-- The depths rank the members. -/
theorem ranked (hnd : (l.map Referral.member).Nodup) (hl : ∀ x ∈ l, Situated l x) : Forest.Ranked (up l) (rank l) where
  root k hk := by
    obtain ⟨x, hx, rfl, hi⟩ := mem_of_up hk
    rw [rank_of_mem hnd hx]
    cases hl x hx with
    | root _ _ hdepth => exact hdepth
    | below y _ _ hinviter => rw [hinviter] at hi; cases hi
  link k p hk := by
    obtain ⟨x, hx, rfl, hi⟩ := mem_of_up hk
    cases hl x hx with
    | root hinviter => rw [hinviter] at hi; cases hi
    | below y hy _ hinviter _ hdepth =>
      obtain rfl : y.member = p := Option.some.inj (hinviter.symm.trans hi)
      rw [up_of_mem hnd hy, rank_of_mem hnd hx, rank_of_mem hnd hy]
      exact ⟨rfl, hdepth⟩

/-- What the link of a member states is what following the inviters finds. -/
structure Positioned (l : List Referral) (x : Referral) (keys : List ℕ) : Prop where
  chain : Forest.Chain (up l) x.member keys
  root : x.root = keys.getLast?.getD x.member
  depth : x.depth = keys.length
  number : x.treeNumber = pathNumber l (x.member :: keys).reverse

theorem pathNumber_singleton (hnd : (l.map Referral.member).Nodup) (hx : x ∈ l) :
    pathNumber l [x.member] = Dec.padded 4 x.branchOrder := by
  simp [pathNumber, Table.get_eq_of_mem hnd hx]

theorem pathNumber_append (hnd : (l.map Referral.member).Nodup) (hx : x ∈ l) (hy : y ∈ l) {path : List ℕ}
    (hpath : y.member ∈ path) : pathNumber l (path ++ [x.member]) = pathNumber l path ++ "-" ++ Dec.padded 4 x.branchOrder := by
  have hne : (path.filterMap (Table.get Referral.member l)).map (fun x => Dec.padded 4 x.branchOrder) ≠ [] := by
    have hmem : y ∈ path.filterMap (Table.get Referral.member l) :=
      List.mem_filterMap.2 ⟨y.member, hpath, Table.get_eq_of_mem hnd hy⟩
    simp [List.ne_nil_of_mem hmem]
  have hlast : [x.member].filterMap (Table.get Referral.member l) = [x] := by
    simp [Table.get_eq_of_mem hnd hx]
  rw [pathNumber, List.filterMap_append, List.map_append, hlast, List.map_singleton,
    String.intercalate_append_of_ne_nil hne (by simp), String.intercalate_singleton]
  rfl

theorem Positioned.exists (hnd : (l.map Referral.member).Nodup) (hl : ∀ x ∈ l, Situated l x) (hx : x ∈ l) :
    ∃ keys, Positioned l x keys := by
  induction hn : x.depth generalizing x with
  | zero =>
    cases hl x hx with
    | below _ _ _ _ _ hdepth => omega
    | root hinviter hroot hdepth htree =>
      exact ⟨[], .root (hinviter ▸ up_of_mem hnd hx), hroot, hdepth, by rw [htree]; exact (pathNumber_singleton hnd hx).symm⟩
  | succ n ih =>
    cases hl x hx with
    | root _ _ hdepth => omega
    | below y hy _ hinviter hroot hdepth htree =>
      obtain ⟨keys, hkeys⟩ := ih hy (by omega)
      refine ⟨y.member :: keys, .link (hinviter ▸ up_of_mem hnd hx) hkeys.chain, ?_, ?_, ?_⟩
      · rw [hroot, hkeys.root, List.getLast?_cons]
        rfl
      · rw [hdepth, hkeys.depth, List.length_cons]
      · rw [htree, hkeys.number, List.reverse_cons (a := x.member), pathNumber_append hnd hx hy (by simp)]

/-- Every member of a placed table has its position, and no member is above itself. -/
theorem Positioned.nodup {keys : List ℕ} (hnd : (l.map Referral.member).Nodup) (hl : ∀ x ∈ l, Situated l x)
    (h : Positioned l x keys) : (x.member :: keys).Nodup := h.chain.nodup (ranked hnd hl)

theorem Positioned.length_lt {keys : List ℕ} (hnd : (l.map Referral.member).Nodup) (hl : ∀ x ∈ l, Situated l x)
    (h : Positioned l x keys) : keys.length < l.length := by
  rw [← List.length_map (f := Referral.member)]
  refine h.chain.length_lt (ranked hnd hl) fun k hk => ?_
  obtain ⟨i, hi⟩ := Option.isSome_iff_exists.1 hk
  obtain ⟨y, hy, rfl, -⟩ := mem_of_up hi
  exact List.mem_map_of_mem hy

/-- The loop of `chain_ids` ends with the chain. -/
theorem chainFrom_chain {rounds : ℕ} {seen keys : List ℕ} {k : ℕ} (h : Forest.Chain (up l) k keys)
    (hrounds : keys.length < rounds) (hseen : ∀ x ∈ keys, x ∉ seen) (hkeys : keys.Nodup) :
    chainFrom l rounds seen k = .ok keys := by
  induction h generalizing rounds seen with
  | root hk =>
    obtain ⟨rounds, rfl⟩ : ∃ n, rounds = n + 1 := ⟨rounds - 1, by omega⟩
    obtain ⟨x, hx, hi⟩ := Option.map_eq_some_iff.1 hk
    simp [chainFrom, hx, found, hi, bind, Except.bind, pure, Except.pure]
  | @link k p keys hk _ ih =>
    obtain ⟨rounds, rfl⟩ : ∃ n, rounds = n + 1 := ⟨rounds - 1, by omega⟩
    obtain ⟨x, hx, hi⟩ := Option.map_eq_some_iff.1 hk
    have hp : p ∉ seen := hseen p List.mem_cons_self
    have hrest : chainFrom l rounds (p :: seen) p = .ok keys := by
      refine ih (Nat.lt_of_succ_lt_succ hrounds) (fun x hx => ?_) (List.nodup_cons.1 hkeys).2
      rw [List.mem_cons, not_or]
      exact ⟨fun h => (List.nodup_cons.1 hkeys).1 (h ▸ hx), hseen x (List.mem_cons_of_mem _ hx)⟩
    simp [chainFrom, hx, found, hi, raiseIf_of_not hp, hrest, bind, Except.bind, pure, Except.pure]

theorem chainIds_of_positioned {keys : List ℕ} (hnd : (l.map Referral.member).Nodup) (hl : ∀ x ∈ l, Situated l x)
    (h : Positioned l x keys) : chainIds x.member l = .ok keys := by
  have hkeys := List.nodup_cons.1 (h.nodup hnd hl)
  refine chainFrom_chain h.chain ((h.length_lt hnd hl).trans (Nat.lt_succ_self _)) (fun k hk => ?_) hkeys.2
  rw [List.mem_singleton]
  rintro rfl
  exact hkeys.1 hk

end

section
variable {w : World} {x : Referral} {m : Member}

@[simp] theorem current_member (w : World) (x : Referral) : (current w x).member = x.member := by
  unfold current
  split <;> rfl

theorem get_links (w : World) (k : ℕ) : Table.get Referral.member w.links k = currentLink w k :=
  Table.get_map (current_member w)

theorem links_members (w : World) : w.links.map Referral.member = w.referrals.map Referral.member := by
  simp [World.links, List.map_map, Function.comp_def]

/-- The loop of `ancestors` ends with the members of the chain. -/
theorem ancestorsFrom_chain {rounds : ℕ} {seen keys : List ℕ} {k : ℕ} (h : Forest.Chain (up w.links) k keys)
    (hlink : currentLink w k = some x) (hrounds : keys.length ≤ rounds) (hseen : ∀ y ∈ keys, y ∉ seen)
    (hkeys : keys.Nodup) (hmembers : ∀ y ∈ keys, ∃ m, w.member y = some m ∧ m.pk = y) :
    (ancestorsFrom w rounds seen x.inviter).map (·.map (·.pk)) = .ok keys := by
  induction h generalizing rounds seen x with
  | root hk =>
    rw [up, get_links, hlink] at hk
    have hi : x.inviter = none := Option.some.inj hk
    rw [hi]
    cases rounds <;> rfl
  | @link k p keys hk hp ih =>
    obtain ⟨rounds, rfl⟩ : ∃ n, rounds = n + 1 := ⟨rounds - 1, by rw [List.length_cons] at hrounds; omega⟩
    rw [up, get_links, hlink] at hk
    have hi : x.inviter = some p := Option.some.inj hk
    obtain ⟨y, hy⟩ : ∃ y, currentLink w p = some y := by
      have hnode := hp.nodes p List.mem_cons_self
      rw [up, get_links, Option.isSome_map] at hnode
      exact Option.isSome_iff_exists.1 hnode
    obtain ⟨m, hm, hpk⟩ := hmembers p List.mem_cons_self
    have hnot : p ∉ seen := hseen p List.mem_cons_self
    have hrest : (ancestorsFrom w rounds (p :: seen) y.inviter).map (·.map (·.pk)) = .ok keys := by
      refine ih hy (Nat.le_of_succ_le_succ hrounds) (fun z hz => ?_) (List.nodup_cons.1 hkeys).2
        fun z hz => hmembers z (List.mem_cons_of_mem _ hz)
      rw [List.mem_cons, not_or]
      exact ⟨fun h => (List.nodup_cons.1 hkeys).1 (h ▸ hz), hseen z (List.mem_cons_of_mem _ hz)⟩
    rw [hi]
    cases hloop : ancestorsFrom w rounds (p :: seen) y.inviter with
    | error e => rw [hloop] at hrest; cases hrest
    | ok rest =>
      rw [hloop] at hrest
      have hpks : rest.map (·.pk) = keys := Except.ok.inj hrest
      simp [ancestorsFrom, raiseIf_of_not hnot, hy, hm, found, hloop, bind, Except.bind, pure, Except.pure, Except.map,
        hpks, hpk]

end

/-! ### The branch that moves -/

/-- The members that a round of `link_members` adds. -/
def invitedBy (l : List Referral) (affected : List ℕ) : List ℕ :=
  (l.filter fun y => y.inviter.any affected.contains && !affected.contains y.member).map (·.member)

section
variable {l : List Referral} {rounds : ℕ} {affected : List ℕ} {k : ℕ}

theorem descendants_succ : descendants l (rounds + 1) affected =
    if invitedBy l affected = [] then affected else descendants l rounds (affected ++ invitedBy l affected) := by
  rw [descendants]
  split
  · rename_i hadded
    exact (if_pos hadded).symm
  · rename_i hadded
    exact (if_neg hadded).symm

theorem mem_invitedBy : k ∈ invitedBy l affected ↔
    ∃ y ∈ l, y.member = k ∧ k ∉ affected ∧ ∃ p ∈ affected, y.inviter = some p := by
  unfold invitedBy
  rw [List.mem_map]
  constructor
  · rintro ⟨y, hy, rfl⟩
    obtain ⟨hy, hin⟩ := List.mem_filter.1 hy
    obtain ⟨hinviter, hnot⟩ := Bool.and_eq_true_iff.1 hin
    obtain ⟨p, hp, hmem⟩ := (Option.any_eq_true ..).1 hinviter
    exact ⟨y, hy, rfl, by simpa using hnot, p, by simpa using hmem, hp⟩
  · rintro ⟨y, hy, rfl, hnot, p, hp, hi⟩
    exact ⟨y, List.mem_filter.2 ⟨hy, by simp [hi, hp, hnot]⟩, rfl⟩

theorem mem_descendants (hk : k ∈ affected) : k ∈ descendants l rounds affected := by
  induction rounds generalizing affected with
  | zero => exact hk
  | succ rounds ih =>
    rw [descendants_succ]
    split_ifs
    · exact hk
    · exact ih (List.mem_append_left _ hk)

/-- What holds of the members at the start and goes down the links holds of the whole branch. -/
theorem descendants_induct {P : ℕ → Prop} (hdown : ∀ y ∈ l, ∀ p, y.inviter = some p → P p → P y.member)
    (h0 : ∀ k ∈ affected, P k) : ∀ k ∈ descendants l rounds affected, P k := by
  induction rounds generalizing affected with
  | zero => exact h0
  | succ rounds ih =>
    rw [descendants_succ]
    split_ifs
    · exact h0
    · refine ih fun k hk => ?_
      rcases List.mem_append.1 hk with hk | hk
      · exact h0 k hk
      · obtain ⟨y, hy, rfl, -, p, hp, hi⟩ := mem_invitedBy.1 hk
        exact hdown y hy p hi (h0 p hp)

/-- A member of the branch is at its start, or its inviter is in the branch. -/
theorem above_of_mem_descendants (hk : k ∈ descendants l rounds affected) :
    k ∈ affected ∨ ∃ y ∈ l, y.member = k ∧ ∃ p ∈ descendants l rounds affected, y.inviter = some p := by
  induction rounds generalizing affected with
  | zero => exact .inl hk
  | succ rounds ih =>
    rw [descendants_succ] at hk ⊢
    split_ifs at hk ⊢
    · exact .inl hk
    · rcases ih hk with hk | hk
      · rcases List.mem_append.1 hk with hk | hk
        · exact .inl hk
        · obtain ⟨y, hy, rfl, -, p, hp, hi⟩ := mem_invitedBy.1 hk
          exact .inr ⟨y, hy, rfl, p, mem_descendants (List.mem_append_left _ hp), hi⟩
      · exact .inr hk

/-- With as many rounds as there are links the branch is complete: every round before the last adds a member. -/
theorem descendants_closed (hnd : (l.map Referral.member).Nodup) (haffected : affected.Nodup)
    (hsub : ∀ k ∈ affected, k ∈ l.map Referral.member) (hrounds : l.length ≤ rounds + affected.length) :
    ∀ y ∈ l, ∀ p ∈ descendants l rounds affected, y.inviter = some p → y.member ∈ descendants l rounds affected := by
  induction rounds generalizing affected with
  | zero =>
    intro y hy p _ _
    have hall : l.map Referral.member ⊆ affected := by
      refine (List.subperm_of_subset haffected hsub).perm_of_length_le ?_ |>.symm.subset
      rw [List.length_map]
      omega
    exact hall (List.mem_map_of_mem hy)
  | succ rounds ih =>
    rw [descendants_succ]
    split_ifs with hadded
    · intro y hy p hp hi
      by_contra hnot
      have hmem : y.member ∈ invitedBy l affected := mem_invitedBy.2 ⟨y, hy, rfl, hnot, p, hp, hi⟩
      rw [hadded] at hmem
      cases hmem
    · refine ih ?_ (fun k hk => ?_) ?_
      · refine List.nodup_append'.2 ⟨haffected, hnd.sublist (List.filter_sublist.map _), fun k hk hk' => ?_⟩
        obtain ⟨y, -, -, hnot, -⟩ := mem_invitedBy.1 hk'
        exact hnot hk
      · rcases List.mem_append.1 hk with hk | hk
        · exact hsub k hk
        · obtain ⟨y, hy, rfl, -⟩ := mem_invitedBy.1 hk
          exact List.mem_map_of_mem hy
      · have hpos := List.length_pos_of_ne_nil hadded
        rw [List.length_append]
        omega

end

end Apartments.Loyalty
