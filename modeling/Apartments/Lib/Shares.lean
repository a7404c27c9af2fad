import Mathlib.Algebra.BigOperators.Group.List.Basic
import Mathlib.Data.Nat.ModEq
import Mathlib.Tactic.Ring

/-!
# Dividing a pool evenly

A pool of `p` units is divided among `n` takers: each has the quotient, and the units of the remainder go to the first ones.
`cut` divides an amount between two sources in proportion to what they have.
-/

namespace Shares

variable {p q n i j c : ℕ}

/-- What the `i`-th of `n` takers has of a pool of `p`. -/
def part (p n i : ℕ) : ℕ := p / n + if i < p % n then 1 else 0

theorem sum_range_part (p n m : ℕ) : ((List.range m).map (part p n)).sum = m * (p / n) + min m (p % n) := by
  induction m with
  | zero => simp
  | succ m ih =>
    rw [List.range_succ, List.map_append, List.sum_append, ih, List.map_singleton, List.sum_singleton, part, Nat.succ_mul]
    split <;> omega

/-- Nothing of the pool is left, and no more than the pool is given. -/
theorem sum_part (hn : 0 < n) : ((List.range n).map (part p n)).sum = p := by
  have hrest : min n (p % n) = p % n := min_eq_right (Nat.mod_lt p hn).le
  rw [sum_range_part, hrest]
  exact Nat.div_add_mod p n

theorem part_le_succ (p n i : ℕ) : part p n i ≤ p / n + 1 := by
  unfold part
  split <;> omega

theorem div_le_part (p n i : ℕ) : p / n ≤ part p n i := Nat.le_add_right ..

/-- The unit more is that of the nearer one. -/
theorem part_anti (h : i ≤ j) : part p n j ≤ part p n i := by
  unfold part
  split <;> split <;> omega

theorem part_le (hp : p ≤ n * c) : part p n i ≤ c := by
  have hdiv : p / n ≤ c := Nat.div_le_of_le_mul hp
  rcases hdiv.eq_or_lt with heq | hlt
  · -- the pool is all of it, and leaves no remainder
    have hmod : p % n = 0 := by
      have := Nat.div_add_mod p n
      rw [heq] at this
      omega
    rw [part, hmod, if_neg (Nat.not_lt_zero i)]
    omega
  · exact (part_le_succ p n i).trans hlt

theorem part_mono (h : p ≤ q) : part p n i ≤ part q n i := by
  rcases (Nat.div_le_div_right (c := n) h).eq_or_lt with heq | hlt
  · have hmod : p % n ≤ q % n := by
      have hp := Nat.div_add_mod p n
      have hq := Nat.div_add_mod q n
      rw [← heq] at hq
      omega
    unfold part
    split <;> split <;> omega
  · exact (part_le_succ p n i).trans (hlt.trans_le (div_le_part q n i))

/-! ### An amount from two sources -/

/-- What the first of two sources with `c` and `p` gives of `r`, in proportion and rounded down. -/
def cut (r c p : ℕ) : ℕ := r * c / (c + p)

section
variable {r r' p : ℕ}

theorem cut_le (h : r ≤ c + p) : cut r c p ≤ c := Nat.div_le_of_le_mul (Nat.mul_le_mul_right c h)

theorem cut_le_self (r c p : ℕ) : cut r c p ≤ r :=
  Nat.div_le_of_le_mul (by rw [Nat.mul_comm]; exact Nat.mul_le_mul_right r (Nat.le_add_right c p))

/-- What is left for the second source is no more than it has. -/
theorem sub_cut_le (h : r ≤ c + p) : r - cut r c p ≤ p := by
  rcases Nat.eq_zero_or_pos (c + p) with hzero | hpos
  · omega
  rcases Nat.le_total r p with hr | hr
  · omega
  have hprod : (r - p) * (c + p) ≤ r * c := by
    obtain ⟨k, rfl⟩ := Nat.exists_eq_add_of_le hr
    have hk : k * p ≤ c * p := Nat.mul_le_mul_right p (by omega)
    rw [Nat.add_sub_cancel_left, Nat.mul_add, Nat.add_mul, Nat.mul_comm p c]
    omega
  have hle : r - p ≤ cut r c p := (Nat.le_div_iff_mul_le hpos).2 hprod
  omega

theorem cut_mono (h : r ≤ r') : cut r c p ≤ cut r' c p := Nat.div_le_div_right (Nat.mul_le_mul_right c h)

/-- More is left for the second source of more. -/
theorem sub_cut_mono (h : r ≤ r') : r - cut r c p ≤ r' - cut r' c p := by
  have hcut : cut r' c p ≤ cut r c p + (r' - r) := by
    rcases Nat.eq_zero_or_pos (c + p) with hzero | hpos
    · rw [cut, hzero, Nat.div_zero]
      exact Nat.zero_le _
    obtain ⟨k, rfl⟩ := Nat.exists_eq_add_of_le h
    rw [cut, cut, Nat.add_sub_cancel_left, ← Nat.add_mul_div_right _ _ hpos]
    refine Nat.div_le_div_right ?_
    rw [Nat.add_mul]
    exact Nat.add_le_add_left (Nat.mul_le_mul_left k (Nat.le_add_right c p)) _
  have := cut_le_self r c p
  omega

end

end Shares
