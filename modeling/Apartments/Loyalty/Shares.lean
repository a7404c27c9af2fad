import Apartments.Lib.Shares
import Apartments.Lib.Traverse
import Apartments.Loyalty.Calculation

/-!
# How a reward is divided (`reward_plan`)

The inviters from the second on divide a pool that is capped twice: by seven percent of the base, and by one percent for each
of them. What one of them has is monotone in the pool, and the pool in the base.
-/

namespace Apartments.Loyalty

/-- How a base of `value` hundredths is divided among the owner and the inviters, the nearest first. -/
structure Divided {μ : Type} (value : ℕ) (owner : μ) (ancestors : List μ) (plan : List (Share μ)) : Prop where
  members : plan.map (·.member) = owner :: ancestors
  owner : ∃ s, plan[0]? = some s ∧ s.cents = value * 3 / 100
  nearest : ∀ s, plan[1]? = some s → s.cents = value * 5 / 100
  pool : ((plan.drop 2).map (·.cents)).sum =
    min (value * min (ancestors.length - 1) 7 / 100) ((ancestors.length - 1) * (value / 100))
  capped : ∀ s ∈ plan.drop 2, s.cents ≤ value / 100
  nearer : (plan.drop 2).Pairwise fun s t => t.cents ≤ s.cents ∧ s.cents ≤ t.cents + 1
  total : (plan.map (·.cents)).sum * 100 ≤ value * 15

section
variable {μ : Type} {value value' n i : ℕ} {base base' : Dec} {owner m : μ} {ancestors older : List μ}
  {plan plan' : List (Share μ)}

theorem cents_amount (h : n < 10000000000000000) : cents (amount n) = .ok n := by
  have hscaled : amount n * 100 = (n : ℤ) := by
    rw [amount]
    push_cast
    ring
  have hlt : amount n < 100000000000000 := by
    have hcast : (n : Dec) < 10000000000000000 := by exact_mod_cast h
    rw [amount]
    linarith
  have hpass : ¬ (amount n < 0 ∨ 100000000000000 ≤ amount n ∨ (amount n * 100).den ≠ 1) := by
    rw [hscaled]
    simp [not_lt.2 (amount_nonneg n), not_le.2 hlt]
  rw [cents, if_neg hpass, hscaled]
  simp

/-- The bases that a plan is made of. -/
theorem cents_isOk (h0 : 0 ≤ base) (hlt : base < 100000000000000) (hexact : Dec.Exact 2 base) :
    ∃ value, cents base = .ok value ∧ amount value = base := by
  obtain ⟨k, rfl⟩ := hexact
  have hk : 0 ≤ k := by
    have : (0 : Dec) ≤ k := by linarith
    exact_mod_cast this
  obtain ⟨n, rfl⟩ := Int.eq_ofNat_of_zero_le hk
  have hn : n < 10000000000000000 := by
    have : (n : Dec) < 10000000000000000 := by
      push_cast at hlt
      linarith
    exact_mod_cast this
  have hamount : amount n = ((n : ℤ) : Dec) / 10 ^ 2 := by
    rw [amount]
    norm_num
  exact ⟨n, hamount ▸ cents_amount hn, hamount⟩

theorem rewardPlan_eq_ok : rewardPlan base owner ancestors = .ok plan ↔ ∃ value, cents base = .ok value ∧
    plan = ⟨owner, .loyalty, 3, value * 3 / 100, 0, 3, 1⟩ :: inviterShares value ancestors := by
  simp only [rewardPlan, bind_eq_ok, pure_eq_ok]
  exact exists_congr fun value => and_congr_right fun _ => eq_comm

/-! ### The older inviters -/

theorem indirectShare_cents : (indirectShare value n i m).cents = Shares.part (indirectPool value n) n i := rfl

theorem indirectPool_le (value n : ℕ) : indirectPool value n ≤ n * (value / 100) := by
  rw [Nat.mul_comm]
  exact min_le_right ..

theorem indirectPool_mono (h : value ≤ value') (n : ℕ) : indirectPool value n ≤ indirectPool value' n := by
  have hcap : value / 100 ≤ value' / 100 := Nat.div_le_div_right h
  exact min_le_min (Nat.div_le_div_right (Nat.mul_le_mul_right _ h)) (Nat.mul_le_mul_right _ hcap)

theorem map_cents_older (value n : ℕ) (older : List μ) : (older.mapIdx (indirectShare value n)).map (·.cents) =
    (List.range older.length).map (Shares.part (indirectPool value n) n) := by
  refine List.ext_getElem (by simp) fun i h h' => ?_
  simp [indirectShare_cents]

theorem older_sum (older : List μ) : ((older.mapIdx (indirectShare value older.length)).map (·.cents)).sum =
    indirectPool value older.length := by
  rw [map_cents_older]
  rcases Nat.eq_zero_or_pos older.length with h | h
  · rw [h]
    simp [indirectPool]
  · exact Shares.sum_part h

theorem older_capped {s : Share μ} (hs : s ∈ older.mapIdx (indirectShare value older.length)) :
    s.cents ≤ value / 100 := by
  obtain ⟨i, hi, rfl⟩ := List.mem_mapIdx.1 hs
  exact Shares.part_le (indirectPool_le value older.length)

theorem older_nearer (older : List μ) : (older.mapIdx (indirectShare value n)).Pairwise fun s t =>
    t.cents ≤ s.cents ∧ s.cents ≤ t.cents + 1 := by
  rw [List.pairwise_iff_getElem]
  intro i j hi hj hij
  simp only [List.getElem_mapIdx, indirectShare_cents]
  refine ⟨Shares.part_anti hij.le, (Shares.part_le_succ ..).trans ?_⟩
  have := Shares.div_le_part (indirectPool value n) n j
  omega

theorem divided (value : ℕ) (owner : μ) (ancestors : List μ) :
    Divided value owner ancestors (⟨owner, .loyalty, 3, value * 3 / 100, 0, 3, 1⟩ :: inviterShares value ancestors) := by
  cases ancestors with
  | nil =>
    refine ⟨rfl, ⟨_, rfl, rfl⟩, by simp [inviterShares], by simp [inviterShares], by simp [inviterShares],
      by simp [inviterShares], ?_⟩
    simp only [inviterShares, List.map_cons, List.map_nil, List.sum_cons, List.sum_nil]
    omega
  | cons direct older =>
    have hpool : ((older.mapIdx (indirectShare value older.length)).map (·.cents)).sum =
        min (value * min older.length 7 / 100) (older.length * (value / 100)) := by
      rw [older_sum, indirectPool, Nat.mul_comm older.length]
    refine ⟨?_, ⟨_, rfl, rfl⟩, fun s hs => ?_, hpool, fun s hs => older_capped hs, older_nearer older, ?_⟩
    · have holder : (older.mapIdx (indirectShare value older.length)).map (·.member) = older :=
        List.ext_getElem (by simp) fun i h h' => by simp [indirectShare]
      simp only [inviterShares, List.map_cons, holder]
    · cases hs
      rfl
    · have hle : min (value * min older.length 7 / 100) (older.length * (value / 100)) ≤ value * 7 / 100 :=
        (min_le_left ..).trans (Nat.div_le_div_right (Nat.mul_le_mul_left _ (min_le_right ..)))
      simp only [inviterShares, List.map_cons, List.sum_cons, hpool]
      omega

/-- The same chain is given more of a higher base, and nobody on it less. -/
theorem inviterShares_mono (h : value ≤ value') (ancestors : List μ) :
    List.Forall₂ (fun s s' => s.member = s'.member ∧ s.kind = s'.kind ∧ s.cents ≤ s'.cents)
      (inviterShares value ancestors) (inviterShares value' ancestors) := by
  cases ancestors with
  | nil => exact .nil
  | cons direct older =>
    refine .cons ⟨rfl, rfl, Nat.div_le_div_right (Nat.mul_le_mul_right _ h)⟩ ?_
    refine List.forall₂_iff_get.2 ⟨by simp, fun i hi hi' => ?_⟩
    simp only [List.get_eq_getElem, List.getElem_mapIdx]
    exact ⟨rfl, rfl, Shares.part_mono (indirectPool_mono h older.length)⟩

theorem cents_mono (h : base ≤ base') (hv : cents base = .ok value) (hv' : cents base' = .ok value') : value ≤ value' := by
  have hle : amount value ≤ amount value' := by rwa [amount_of_cents hv, amount_of_cents hv']
  have hcast : (value : Dec) ≤ value' := by
    unfold amount at hle
    linarith
  exact_mod_cast hcast

/-- A base in whole hundredths is divided among the owner and the inviters of any chain, and a higher one gives no
beneficiary less. -/
theorem reward_is_divided (owner : μ) (ancestors : List μ) :
    (∀ base : Dec, 0 ≤ base → base < 100000000000000 → Dec.Exact 2 base → ∃ value plan,
      amount value = base ∧ rewardPlan base owner ancestors = .ok plan ∧ Divided value owner ancestors plan) ∧
    ∀ base base' plan plan', rewardPlan base owner ancestors = .ok plan → rewardPlan base' owner ancestors = .ok plan' →
      base ≤ base' →
        List.Forall₂ (fun s s' => s.member = s'.member ∧ s.kind = s'.kind ∧ s.cents ≤ s'.cents) plan plan' := by
  refine ⟨fun base h0 hlt hexact => ?_, fun base base' plan plan' h h' hle => ?_⟩
  · obtain ⟨value, hvalue, hamount⟩ := cents_isOk h0 hlt hexact
    exact ⟨value, _, hamount, rewardPlan_eq_ok.2 ⟨value, hvalue, rfl⟩, divided value owner ancestors⟩
  · obtain ⟨value, hvalue, rfl⟩ := rewardPlan_eq_ok.1 h
    obtain ⟨value', hvalue', rfl⟩ := rewardPlan_eq_ok.1 h'
    have hcents := cents_mono hle hvalue hvalue'
    exact .cons ⟨rfl, rfl, Nat.div_le_div_right (Nat.mul_le_mul_right _ hcents)⟩ (inviterShares_mono hcents ancestors)

end

/-- Of 10.01 four inviters have 0.50, 0.10, 0.10 and 0.10, and the owner has 0.30. -/
theorem reward_is_divided_four : ∃ plan, rewardPlan (1001 / 100) 1 [2, 3, 4, 5] = .ok plan ∧
    plan.map (·.cents) = [30, 50, 10, 10, 10] := by
  obtain ⟨value, plan, hvalue, hplan, hdivided⟩ := (reward_is_divided 1 [2, 3, 4, 5]).1 (1001 / 100) (by norm_num) (by norm_num)
    ⟨1001, by norm_num⟩
  refine ⟨plan, hplan, ?_⟩
  obtain ⟨v, hv, rfl⟩ := rewardPlan_eq_ok.1 hplan
  have : v = 1001 := by
    have h := amount_of_cents hv
    rw [show (1001 / 100 : Dec) = amount 1001 by rw [amount]; norm_num] at h
    exact amount_inj h
  subst this
  decide

end Apartments.Loyalty
