import Mathlib.Algebra.BigOperators.Group.List.Basic
import Mathlib.Algebra.Order.BigOperators.Group.List
import Mathlib.Algebra.Order.Group.Unbundled.Basic
import Mathlib.Tactic.Abel

/-!
# Taking an amount from several sources in order

An amount is taken from sources with a ceiling each, from the first one as much as it has, and so on: `takes` is what is
taken from each source and `rest` what no source had.
-/

namespace Waterfall

variable {M : Type*} [AddCommGroup M] [LinearOrder M]

def takes : M → List M → List M
  | _, [] => []
  | x, c :: cs => min c x :: takes (x - min c x) cs

def rest : M → List M → M
  | x, [] => x
  | x, c :: cs => rest (x - min c x) cs

theorem length_takes (x : M) (l : List M) : (takes x l).length = l.length := by
  induction l generalizing x with
  | nil => rfl
  | cons c l ih =>
    rw [takes, List.length_cons, List.length_cons, ih]

/-- Nothing of the amount is lost. -/
theorem sum_takes (x : M) (l : List M) : (takes x l).sum + rest x l = x := by
  induction l generalizing x with
  | nil => rw [takes, rest, List.sum_nil, zero_add]
  | cons c l ih =>
    rw [takes, rest, List.sum_cons, add_assoc, ih]
    abel

theorem takes_le (x : M) (l : List M) : List.Forall₂ (· ≤ ·) (takes x l) l := by
  induction l generalizing x with
  | nil => exact .nil
  | cons c l ih => exact .cons (min_le_left c x) (ih _)

theorem rest_zero {l : List M} (hl : ∀ c ∈ l, 0 ≤ c) : rest 0 l = 0 := by
  induction l with
  | nil => rfl
  | cons c l ih =>
    obtain ⟨hc, hl⟩ := List.forall_mem_cons.1 hl
    rw [rest, min_eq_right hc, sub_zero, ih hl]

variable [IsOrderedAddMonoid M] {x : M} {l : List M}

theorem takes_nonneg (hx : 0 ≤ x) (hl : ∀ c ∈ l, 0 ≤ c) : ∀ t ∈ takes x l, 0 ≤ t := by
  induction l generalizing x with
  | nil => nofun
  | cons c l ih =>
    obtain ⟨hc, hl⟩ := List.forall_mem_cons.1 hl
    rw [takes, List.forall_mem_cons]
    exact ⟨le_min hc hx, ih (sub_nonneg.2 (min_le_right c x)) hl⟩

theorem rest_nonneg (hx : 0 ≤ x) : 0 ≤ rest x l := by
  induction l generalizing x with
  | nil => exact hx
  | cons c l ih => exact ih (sub_nonneg.2 (min_le_right c x))

/-- All of the amount is taken if the sources have as much. -/
theorem rest_eq_zero_iff (hx : 0 ≤ x) (hl : ∀ c ∈ l, 0 ≤ c) : rest x l = 0 ↔ x ≤ l.sum := by
  induction l generalizing x with
  | nil =>
    rw [rest, List.sum_nil]
    exact ⟨fun h => h.le, fun h => le_antisymm h hx⟩
  | cons c l ih =>
    obtain ⟨hc, hl⟩ := List.forall_mem_cons.1 hl
    rw [rest, ih (sub_nonneg.2 (min_le_right c x)) hl, List.sum_cons, sub_le_iff_le_add]
    rcases le_total c x with hcx | hxc
    · rw [min_eq_left hcx, add_comm]
    · -- the source has all of it
      have hsum : 0 ≤ l.sum := List.sum_nonneg hl
      rw [min_eq_right hxc]
      exact iff_of_true (le_add_of_nonneg_left hsum) (hxc.trans (le_add_of_nonneg_right hsum))

end Waterfall
