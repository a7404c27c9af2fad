import Mathlib.Data.List.Nodup
import Mathlib.Data.List.Perm.Subperm

/-!
# Forests by their links

A link takes a node to the node above it, and a root to none; what is no node has no link. `Chain` follows the links up to a
root. A rank that is zero at the roots and grows by one from a node to the nodes below it leaves no cycle: every node has
one chain, whose length is its rank.
-/

namespace Forest

variable {κ : Type*} {up : κ → Option (Option κ)} {rank : κ → ℕ} {k p : κ} {ks ks' : List κ}

/-- The nodes above a node, the nearest first. -/
inductive Chain (up : κ → Option (Option κ)) : κ → List κ → Prop
  | root {k : κ} : up k = some none → Chain up k []
  | link {k p : κ} {ks : List κ} : up k = some (some p) → Chain up p ks → Chain up k (p :: ks)

/-- The rank is zero at the roots, and the node above a node is a node of the rank before. -/
structure Ranked (up : κ → Option (Option κ)) (rank : κ → ℕ) : Prop where
  root : ∀ k, up k = some none → rank k = 0
  link : ∀ k p, up k = some (some p) → (up p).isSome = true ∧ rank k = rank p + 1

theorem Chain.unique (h : Chain up k ks) (h' : Chain up k ks') : ks = ks' := by
  induction h generalizing ks' with
  | root hk =>
    cases h' with
    | root => rfl
    | link hk' => cases hk.symm.trans hk'
  | link hk _ ih =>
    cases h' with
    | root hk' => cases hk.symm.trans hk'
    | link hk' hp' =>
      cases hk.symm.trans hk'
      rw [ih hp']

theorem Chain.nodes (h : Chain up k ks) : ∀ x ∈ k :: ks, (up x).isSome = true := by
  induction h with
  | root hk =>
    intro x hx
    rw [List.mem_singleton.1 hx, hk]
    rfl
  | link hk _ ih =>
    intro x hx
    rcases List.mem_cons.1 hx with rfl | hx
    · rw [hk]
      rfl
    · exact ih x hx

theorem Ranked.chain (h : Ranked up rank) (hk : (up k).isSome = true) : ∃ ks, Chain up k ks := by
  induction hn : rank k generalizing k with
  | zero =>
    cases hup : up k with
    | none => simp [hup] at hk
    | some link =>
      cases link with
      | none => exact ⟨[], .root hup⟩
      | some p =>
        have := (h.link k p hup).2
        omega
  | succ n ih =>
    cases hup : up k with
    | none => simp [hup] at hk
    | some link =>
      cases link with
      | none =>
        have := h.root k hup
        omega
      | some p =>
        obtain ⟨hp, hrank⟩ := h.link k p hup
        obtain ⟨ks, hks⟩ := ih hp (by omega)
        exact ⟨p :: ks, .link hup hks⟩

theorem Chain.length_eq (h : Chain up k ks) (hr : Ranked up rank) : ks.length = rank k := by
  induction h with
  | root hk => exact (hr.root _ hk).symm
  | link hk _ ih => rw [List.length_cons, ih, (hr.link _ _ hk).2]

theorem Chain.rank_lt (h : Chain up k ks) (hr : Ranked up rank) : ∀ x ∈ ks, rank x < rank k := by
  induction h with
  | root => simp
  | link hk _ ih =>
    intro x hx
    have hlink := (hr.link _ _ hk).2
    rcases List.mem_cons.1 hx with rfl | hx
    · omega
    · have := ih x hx
      omega

/-- A chain does not return. -/
theorem Chain.nodup (h : Chain up k ks) (hr : Ranked up rank) : (k :: ks).Nodup := by
  induction h with
  | root => exact List.nodup_singleton _
  | link hk hp ih => exact List.nodup_cons.2 ⟨fun hx => Nat.lt_irrefl _ ((Chain.link hk hp).rank_lt hr _ hx), ih⟩

/-- A chain is shorter than any list of all nodes. -/
theorem Chain.length_lt (h : Chain up k ks) (hr : Ranked up rank) {nodes : List κ}
    (hnodes : ∀ x, (up x).isSome = true → x ∈ nodes) : ks.length < nodes.length := by
  have hsub : (k :: ks) ⊆ nodes := fun x hx => hnodes x (h.nodes x hx)
  exact (List.subperm_of_subset (h.nodup hr) hsub).length_le

/-- What the chain of a node of `D` reaches, when `D` is closed downwards. -/
theorem Chain.of_mem_above (h : Chain up k ks) {D : κ → Prop} (hD : ∀ x p, up x = some (some p) → D p → D x) {x : κ}
    (hx : x ∈ k :: ks) (hin : D x) : D k := by
  induction h with
  | root => rwa [List.mem_singleton.1 hx] at hin
  | link hk _ ih =>
    rcases List.mem_cons.1 hx with rfl | hx
    · exact hin
    · exact hD _ _ hk (ih hx)

end Forest
