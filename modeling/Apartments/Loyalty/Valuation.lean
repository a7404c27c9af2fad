import Apartments.Hostaway.Modifications
import Apartments.Loyalty.Calculation
import Mathlib.Data.Prod.Lex
import Mathlib.Order.WithBot
import Mathlib.Data.String.Basic

/-!
# The riyal contract of a stay (`loyalty/valuation.py`)

`_contract` rebuilds what a stay was funded with from the intent and the completed changes, in the order they were
completed. `fx` is what `validate_payment_snapshot` answers for the exchange snapshot of a request.
-/

namespace Apartments.Loyalty

open Hostaway

/-- What `intent_total_sar` reads of the intent; `snapshotValid` is the answer for its exchange snapshot. -/
structure FundedIntent where
  currency : String
  totalPrice : Dec
  paymentAmountSar : Dec
  snapshotValid : Bool
deriving DecidableEq

/-- `validate_payment_snapshot` on the snapshot of a request: its amount, its currency and the payment in riyals. -/
abbrev FxCheck := Uuid → Dec → String → Option Dec → Bool

/-- `intent_total_sar`. -/
def intentTotalSar (i : FundedIntent) : Except Refusal Dec :=
  if i.currency = "SAR" then
    if i.paymentAmountSar = i.totalPrice then .ok i.paymentAmountSar
    else .error (.validation "قيمة التسوية بالريال لا تطابق الحجز.")
  else if i.snapshotValid then .ok i.paymentAmountSar
  else .error (.validation "يلزم سعر صرف الحجز الأصلي الموثق قبل تسوية النقاط.")

/-- The key of `order_by("completed_at", "pk")`; a missing time comes last. -/
def completionKey (m : ModificationRequest) : WithTop ℕ ×ₗ String :=
  toLex (m.completedAt.elim ⊤ (fun t => (t : WithTop ℕ)), m.pk.str)

def isCompletedChange (m : ModificationRequest) : Bool := m.status == .completed && !isCancellation m

/-- The completed changes of the reservation. -/
def completedChanges (requests : List ModificationRequest) : List ModificationRequest :=
  (requests.filter isCompletedChange).mergeSort fun m n => decide (completionKey m ≤ completionKey n)

/-- One change of the loop of `_contract`, from the source total and the riyals so far. -/
def settleChange (fx : FxCheck) (currency : String) (p : Dec × Dec) (change : ModificationRequest) :
    Except Refusal (Dec × Dec) :=
  match change.newTotal with
  | none => .error (.validation "تسلسل تسويات الحجز بالعملات غير مكتمل.")
  | some target =>
    if change.oldTotal ≠ p.1 ∨ change.currency ≠ currency then
      .error (.validation "تسلسل تسويات الحجز بالعملات غير مكتمل.")
    else if target < 0 then .error (.validation "قيمة تسوية الحجز غير صحيحة.")
    else if p.1 < target then
      if fx change.pk (target - p.1) currency change.paymentAmountSar then
        .ok (target, p.2 + change.paymentAmountSar.getD 0)
      else .error (.validation "يلزم توثيق تمويل زيادة الحجز وسعر صرفها.")
    else if p.1 ≠ 0 then .ok (target, Dec.quantize 2 (p.2 * target / p.1))
    else .ok (target, p.2)

/-- `_contract`. -/
def contract (fx : FxCheck) (i : FundedIntent) (b : Board) : Except Refusal (Dec × Dec) := do
  let sar ← intentTotalSar i
  raiseIf (b.reservation.currency ≠ i.currency) (.validation "عملة الحجز لا تطابق لقطة الصرف الأصلية.")
  let settled ← (completedChanges b.requests).foldlM (settleChange fx b.reservation.currency) (i.totalPrice, sar)
  raiseIf (settled.1 ≠ b.reservation.totalPrice) (.validation "إجمالي الحجز لا يطابق تسويات العملة الموثقة.")
  return settled

variable {fx : FxCheck} {i : FundedIntent} {b : Board} {p : Dec × Dec} {l l' : List ModificationRequest}
  {m : ModificationRequest}

theorem contract_eq_ok :
    contract fx i b = .ok p ↔ ∃ sar, intentTotalSar i = .ok sar ∧ b.reservation.currency = i.currency ∧
      (completedChanges b.requests).foldlM (settleChange fx b.reservation.currency) (i.totalPrice, sar) = .ok p ∧
      p.1 = b.reservation.totalPrice := by
  simp only [contract, bind_eq_ok, raiseIf_eq_ok, not_not]
  constructor
  · rintro ⟨sar, hsar, _, hcurrency, settled, hfold, _, htotal, hp⟩
    cases hp
    exact ⟨sar, hsar, hcurrency, hfold, htotal⟩
  · rintro ⟨sar, hsar, hcurrency, hfold, htotal⟩
    exact ⟨sar, hsar, (), hcurrency, p, hfold, (), htotal, rfl⟩

/-! ### The changes in their order -/

theorem pairwise_completedChanges (l : List ModificationRequest) :
    (completedChanges l).Pairwise fun m n => decide (completionKey m ≤ completionKey n) = true := by
  unfold completedChanges
  apply List.pairwise_mergeSort
  · intro x y z hxy hyz
    exact decide_eq_true (le_trans (of_decide_eq_true hxy) (of_decide_eq_true hyz))
  · intro x y
    simpa using le_total (completionKey x) (completionKey y)

theorem mem_completedChanges : m ∈ completedChanges l ↔ m ∈ l ∧ isCompletedChange m = true := by
  simp [completedChanges]

/-- Changes that are completed after all others come last. -/
theorem completedChanges_append {ms : List ModificationRequest} (hkeys : (l'.map (·.pk)).Nodup)
    (hperm : (l'.filter isCompletedChange).Perm (l.filter isCompletedChange ++ ms))
    (hsorted : ms.Pairwise fun m n => decide (completionKey m ≤ completionKey n) = true)
    (hlast : ∀ n ∈ l, isCompletedChange n = true → ∀ m ∈ ms, completionKey n ≤ completionKey m) :
    completedChanges l' = completedChanges l ++ ms := by
  have hperm' : (completedChanges l').Perm (completedChanges l ++ ms) :=
    (List.mergeSort_perm _ _).trans (hperm.trans ((List.mergeSort_perm _ _).symm.append_right ms))
  refine List.Perm.eq_of_pairwise (fun x y hx hy hxy hyx => ?_) (pairwise_completedChanges l') ?_ hperm'
  · have hkey : completionKey x = completionKey y := le_antisymm (of_decide_eq_true hxy) (of_decide_eq_true hyx)
    have hpk : x.pk = y.pk := Uuid.ext_str (congrArg Prod.snd (toLex.injective hkey))
    have hy' : y ∈ completedChanges l' := hperm'.mem_iff.2 hy
    exact List.inj_on_of_nodup_map hkeys (mem_completedChanges.1 hx).1 (mem_completedChanges.1 hy').1 hpk
  · refine List.pairwise_append.2 ⟨pairwise_completedChanges l, hsorted, fun x hx y hy => ?_⟩
    obtain ⟨hx, hdone⟩ := mem_completedChanges.1 hx
    exact decide_eq_true (hlast x hx hdone y hy)

/-- A change from the total so far, in the currency of the stay and funded if it costs more, is settled. -/
theorem settleChange_ok {currency : String} {target : Dec} (hnew : m.newTotal = some target) (hold : m.oldTotal = p.1)
    (hcurrency : m.currency = currency) (htarget : 0 ≤ target)
    (hfunded : p.1 < target → fx m.pk (target - p.1) currency m.paymentAmountSar = true) :
    ∃ q, settleChange fx currency p m = .ok q ∧ q.1 = target := by
  unfold settleChange
  rw [hnew]
  simp only [hold, hcurrency, ne_eq, not_true_eq_false, or_self, if_false, not_lt.2 htarget]
  split_ifs with hmore hfx
  · exact ⟨_, rfl, rfl⟩
  · exact absurd (hfunded hmore) hfx
  · exact ⟨_, rfl, rfl⟩
  · exact ⟨_, rfl, rfl⟩

end Apartments.Loyalty
