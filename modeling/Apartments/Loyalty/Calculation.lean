import Apartments.Lib.Outcome
import Apartments.Loyalty.Models

/-!
# Exact points arithmetic (`loyalty/calculation.py`)
-/

namespace Apartments.Loyalty

/-- `cents`. -/
def cents (value : Dec) : Except Refusal ℕ :=
  if value < 0 ∨ 100000000000000 ≤ value ∨ (value * 100).den ≠ 1 then
    .error (.value "اعتمد خانتين عشريتين فقط وقيمة غير سالبة.")
  else .ok (value * 100).num.toNat

/-- `amount`. -/
def amount (value : ℕ) : Dec := value / 100

/-- `Component` under which a reward is posted; its operation type has the same name. -/
inductive RewardKind
  | loyalty | directReferral | indirectReferral
deriving DecidableEq, Repr

def RewardKind.component : RewardKind → Component
  | .loyalty => .loyalty
  | .directReferral => .directReferral
  | .indirectReferral => .indirectReferral

def RewardKind.operationType : RewardKind → OperationType
  | .loyalty => .loyalty
  | .directReferral => .directReferral
  | .indirectReferral => .indirectReferral

/-- A row of `reward_plan`. -/
structure Share (μ : Type) where
  member : μ
  kind : RewardKind
  rate : ℕ
  cents : ℕ
  distance : ℕ
  numerator : ℕ
  denominator : ℕ
deriving DecidableEq

/-- What the inviters from the second on are given together. -/
def indirectPool (value count : ℕ) : ℕ := min (value * min count 7 / 100) (value / 100 * count)

/-- The share of the inviter at `index` behind the nearest one. -/
def indirectShare {μ : Type} (value count index : ℕ) (member : μ) : Share μ where
  member := member
  kind := .indirectReferral
  rate := 1
  cents := indirectPool value count / count + if index < indirectPool value count % count then 1 else 0
  distance := index + 2
  numerator := min count 7
  denominator := count

/-- The shares of the inviters; the nearest comes first. -/
def inviterShares {μ : Type} (value : ℕ) : List μ → List (Share μ)
  | [] => []
  | direct :: older =>
    ⟨direct, .directReferral, 5, value * 5 / 100, 1, 5, 1⟩ :: older.mapIdx (indirectShare value older.length)

/-- `reward_plan`. -/
def rewardPlan {μ : Type} (base : Dec) (owner : μ) (ancestors : List μ) : Except Refusal (List (Share μ)) := do
  let value ← cents base
  return ⟨owner, .loyalty, 3, value * 3 / 100, 0, 3, 1⟩ :: inviterShares value ancestors

section
variable {μ : Type} {value n : ℕ} {x : Dec}

theorem amount_nonneg (n : ℕ) : 0 ≤ amount n := by
  unfold amount
  positivity

theorem amount_inj {m n : ℕ} (h : amount m = amount n) : m = n := by
  unfold amount at h
  have : (m : ℚ) = n := by linarith
  exact_mod_cast this

@[simp] theorem amount_zero : amount 0 = 0 := by simp [amount]

theorem exact_amount (n : ℕ) : Dec.Exact 2 (amount n) := ⟨n, by simp [amount]; norm_num⟩

/-- The value of which `cents` reads the hundredths. -/
theorem amount_of_cents (h : cents x = .ok n) : amount n = x := by
  unfold cents at h
  split at h
  · simp at h
  · rename_i hx
    push Not at hx
    obtain ⟨hnn, -, hden⟩ := hx
    obtain rfl : (x * 100).num.toNat = n := by simpa using h
    have hnum : 0 ≤ (x * 100).num := Rat.num_nonneg.2 (by linarith)
    have hcast : (((x * 100).num.toNat : ℤ) : ℚ) = x * 100 := by
      rw [Int.toNat_of_nonneg hnum]
      exact Rat.coe_int_num_of_den_eq_one hden
    push_cast at hcast
    rw [amount, hcast]
    ring

theorem cents_spec {E : Refusal → Prop} (hE : ∀ text, E (.value text)) :
    Outcome (cents x) (fun n => amount n = x) E := by
  cases h : cents x with
  | ok n => exact amount_of_cents h
  | error e =>
    unfold cents at h
    split at h
    · cases h
      exact hE _
    · simp at h

theorem cents_fits {E : Refusal → Prop} (hE : ∀ text, E (.value text)) :
    Outcome (cents x) (fun n => amount n = x ∧ x < 100000000000000) E := by
  cases h : cents x with
  | ok n =>
    refine ⟨amount_of_cents h, ?_⟩
    unfold cents at h
    split at h
    · cases h
    · rename_i hx
      exact not_le.1 fun hle => hx (.inr (.inl hle))
  | error e => exact (cents_spec hE).of_eq_error h

theorem cents_eq_zero (h : cents 0 = .ok n) : n = 0 := amount_inj (by rw [amount_of_cents h, amount_zero])

/-- The beneficiaries of a plan, with what each is rewarded for. -/
def beneficiaries (owner : μ) : List μ → List (μ × RewardKind)
  | [] => [(owner, .loyalty)]
  | direct :: older => (owner, .loyalty) :: (direct, .directReferral) :: older.map (·, .indirectReferral)

theorem map_rewardPlan {base : Dec} {owner : μ} {ancestors : List μ} {plan : List (Share μ)}
    (h : rewardPlan base owner ancestors = .ok plan) :
    plan.map (fun s => (s.member, s.kind)) = beneficiaries owner ancestors := by
  unfold rewardPlan at h
  cases hc : cents base with
  | error e => simp [hc, bind, Except.bind] at h
  | ok value =>
    obtain rfl : _ = plan := by simpa [hc, bind, Except.bind, pure, Except.pure] using h
    cases ancestors with
    | nil => rfl
    | cons direct older =>
      simp only [inviterShares, List.map_cons, beneficiaries]
      congr 2
      refine List.ext_getElem? fun i => ?_
      simp [Function.comp_def, indirectShare]

theorem nodup_beneficiaries {owner : μ} {ancestors : List μ} (h : ancestors.Nodup) :
    (beneficiaries owner ancestors).Nodup := by
  cases ancestors with
  | nil => simp [beneficiaries]
  | cons direct older =>
    have hmap : (older.map fun m => (m, RewardKind.indirectReferral)).Nodup :=
      List.Nodup.map (fun a b hab => (Prod.mk.inj hab).1) (List.nodup_cons.1 h).2
    simpa [beneficiaries] using hmap

/-- Without a base nobody is rewarded. -/
theorem cents_eq_zero_of_mem_plan {owner : μ} {ancestors : List μ} {plan : List (Share μ)} {s : Share μ}
    (h : rewardPlan 0 owner ancestors = .ok plan) (hs : s ∈ plan) : s.cents = 0 := by
  unfold rewardPlan at h
  cases hc : cents 0 with
  | error e => simp [hc, bind, Except.bind] at h
  | ok value =>
    obtain rfl := cents_eq_zero hc
    obtain rfl : _ = plan := by simpa [hc, bind, Except.bind, pure, Except.pure] using h
    rcases List.mem_cons.1 hs with rfl | hs
    · simp
    · cases ancestors with
      | nil => simp [inviterShares] at hs
      | cons direct older =>
        rcases List.mem_cons.1 hs with rfl | hs
        · simp
        · obtain ⟨i, m, rfl⟩ : ∃ i m, indirectShare 0 older.length i m = s := by
            obtain ⟨i, hi, rfl⟩ := List.mem_mapIdx.1 hs
            exact ⟨i, _, rfl⟩
          simp [indirectShare, indirectPool]

end

end Apartments.Loyalty
