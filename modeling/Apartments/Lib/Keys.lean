import Mathlib.Data.List.Basic
import Std.Data.String.ToNat

/-!
# Text keys

Keys built as text from parts: a part without the separator, the separator, the rest. Two such keys are equal
only if their parts are.
-/

namespace Keys

/-- The digits of a number, none of which is a separator. -/
theorem notMem_repr {c : Char} (hc : c.isDigit = false) (n : ℕ) : c ∉ (Nat.repr n).toList := by
  rw [Nat.toList_repr]
  intro h
  rw [Nat.isDigit_of_mem_toDigits (by decide) (by decide) h] at hc
  simp at hc

theorem before_inj {α : Type*} {c : α} {l l' m m' : List α} (hl : c ∉ l) (hl' : c ∉ l')
    (h : l ++ c :: m = l' ++ c :: m') : l = l' ∧ m = m' := by
  induction l generalizing l' with
  | nil =>
    cases l' with
    | nil => simpa using h
    | cons d l' =>
      obtain ⟨rfl, -⟩ := List.cons.inj h
      simp at hl'
  | cons d l ih =>
    cases l' with
    | nil =>
      obtain ⟨rfl, -⟩ := List.cons.inj h
      simp at hl
    | cons e l' =>
      obtain ⟨hde, htail⟩ := List.cons.inj h
      obtain ⟨rfl, rfl⟩ := ih (List.not_mem_of_not_mem_cons hl) (List.not_mem_of_not_mem_cons hl') htail
      exact ⟨by rw [hde], rfl⟩

variable {a b x y sep : String} {c : Char}

/-- The part before the first separator and the rest after it are those of the key. -/
theorem split_inj (hsep : sep.toList = [c]) (ha : c ∉ a.toList) (hb : c ∉ b.toList)
    (h : a ++ sep ++ x = b ++ sep ++ y) : a = b ∧ x = y := by
  have h' := congrArg String.toList h
  simp only [String.toList_append, hsep, List.append_assoc, List.singleton_append] at h'
  obtain ⟨h1, h2⟩ := before_inj ha hb h'
  exact ⟨String.toList_injective h1, String.toList_injective h2⟩

/-- The part before the last separator and the rest after it are those of the key. -/
theorem split_last_inj (hsep : sep.toList = [c]) (hx : c ∉ x.toList) (hy : c ∉ y.toList)
    (h : a ++ sep ++ x = b ++ sep ++ y) : a = b ∧ x = y := by
  have h' := congrArg (fun s : String => s.toList.reverse) h
  simp only [String.toList_append, hsep, List.append_assoc, List.singleton_append, List.reverse_append,
    List.reverse_cons] at h'
  obtain ⟨h1, h2⟩ := before_inj (by simpa using hx) (by simpa using hy) h'
  exact ⟨String.toList_injective (List.reverse_injective h2), String.toList_injective (List.reverse_injective h1)⟩

/-- A key without the separator is no key with it. -/
theorem ne_of_notMem (hsep : sep.toList = [c]) (ha : c ∉ a.toList) : a ≠ b ++ sep ++ y := by
  rintro rfl
  simp [hsep] at ha

end Keys
