import Mathlib.Data.Rat.Floor
import Mathlib.Tactic.FieldSimp
import Mathlib.Tactic.Linarith
import Apartments.Lib.Keys

/-!
# Decimal amounts

Amounts are Python `Decimal`s read from `DecimalField` columns; every sum and difference the program takes
of them is exact, so they are rationals here. Rounding is `quantize(..., rounding=ROUND_HALF_UP)`, which
takes a tie away from zero, and `fixed` is the text of a decimal with a given number of places.
-/

namespace Apartments

/-- A finite `Decimal`. -/
abbrev Dec := ℚ

namespace Dec

/-- `ROUND_HALF_UP` to a whole number. -/
def roundHalfUp (x : Dec) : ℤ := if 0 ≤ x then ⌊x + 1 / 2⌋ else -⌊-x + 1 / 2⌋

/-- `x.quantize(Decimal(10) ** -places, rounding=ROUND_HALF_UP)`. -/
def quantize (places : ℕ) (x : Dec) : Dec := roundHalfUp (x * 10 ^ places) / 10 ^ places

/-- `ROUND_HALF_EVEN` to a whole number. -/
def roundHalfEven (x : Dec) : ℤ :=
  if x - ⌊x⌋ < 1 / 2 ∨ (x - ⌊x⌋ = 1 / 2 ∧ ⌊x⌋ % 2 = 0) then ⌊x⌋ else ⌊x⌋ + 1

/-- `x.quantize(Decimal(10) ** -places)` in the default context. -/
def quantizeEven (places : ℕ) (x : Dec) : Dec := roundHalfEven (x * 10 ^ places) / 10 ^ places

/-- The digits of `n`, padded on the left with zeros to the given width. -/
def padded (width n : ℕ) : String := String.ofList (List.replicate (width - n.repr.length) '0') ++ n.repr

/-- `format(x, f".{places}f")`. -/
def fixed (places : ℕ) (x : Dec) : String :=
  let scaled := roundHalfUp (x * 10 ^ places)
  let sign := if scaled < 0 then "-" else ""
  let whole := (scaled.natAbs / 10 ^ places).repr
  if places = 0 then sign ++ whole else sign ++ whole ++ "." ++ padded places (scaled.natAbs % 10 ^ places)

example : fixed 2 (1234567 / 1000) = "1234.57" := by decide +kernel

/-- The places of `str(Decimal(n) / 100)`, no more than the quotient needs. -/
def places (n : ℕ) : String :=
  if n = 0 then "" else if n % 10 = 0 then "." ++ (n / 10).repr else "." ++ padded 2 n

/-- `str(Decimal(n) / 100)`. -/
def centsStr (n : ℕ) : String := (n / 100).repr ++ places (n % 100)

example : [centsStr 5000, centsStr 5050, centsStr 7] = ["50", "50.5", "0.07"] := by decide +kernel

theorem notMem_padded {c : Char} (hc : c.isDigit = false) (width n : ℕ) : c ∉ (padded width n).toList := by
  simp only [padded, String.toList_append, String.toList_ofList, List.mem_append, List.mem_replicate, not_or]
  refine ⟨?_, Keys.notMem_repr hc n⟩
  rintro ⟨-, rfl⟩
  simp at hc

theorem padded_inj {width m n : ℕ} (h : padded width m = padded width n) : m = n := by
  have h' := congrArg (fun s => Nat.ofDigitChars 10 s.toList 0) h
  simpa only [padded, String.toList_append, String.toList_ofList, Nat.ofDigitChars_append,
    Nat.ofDigitChars_replicate_zero, Nat.mul_zero, Nat.toList_repr, Nat.ofDigitChars_ten_toDigits] using h'

/-- The hundredths that `places` shows. -/
def readPlaces (s : String) : ℕ :=
  Nat.ofDigitChars 10 (s.toList.drop 1) 0 * if s.toList.length = 2 then 10 else 1

theorem readPlaces_places : ∀ i : Fin 100, readPlaces (places i) = i := by decide +kernel

theorem places_shape (n : ℕ) : places n = "" ∨ ∃ t, places n = "." ++ t := by
  unfold places
  split
  · exact .inl rfl
  · split <;> exact .inr ⟨_, rfl⟩

theorem centsStr_inj {m n : ℕ} (h : centsStr m = centsStr n) : m = n := by
  have hdot : ∀ k : ℕ, '.' ∉ k.repr.toList := fun k => Keys.notMem_repr rfl k
  have hparts : m / 100 = n / 100 ∧ places (m % 100) = places (n % 100) := by
    unfold centsStr at h
    rcases places_shape (m % 100) with hm | ⟨s, hm⟩ <;> rcases places_shape (n % 100) with hn | ⟨t, hn⟩ <;>
      rw [hm, hn] at h ⊢
    · exact ⟨Nat.repr_injective (by simpa using h), rfl⟩
    · rw [String.append_empty, ← String.append_assoc] at h
      exact absurd h (Keys.ne_of_notMem rfl (hdot _))
    · rw [String.append_empty, ← String.append_assoc] at h
      exact absurd h.symm (Keys.ne_of_notMem rfl (hdot _))
    · rw [← String.append_assoc, ← String.append_assoc] at h
      obtain ⟨hrepr, rfl⟩ := Keys.split_inj rfl (hdot _) (hdot _) h
      exact ⟨Nat.repr_injective hrepr, rfl⟩
  have hm := readPlaces_places ⟨m % 100, Nat.mod_lt _ (by decide)⟩
  have hn := readPlaces_places ⟨n % 100, Nat.mod_lt _ (by decide)⟩
  have hmod : m % 100 = n % 100 := hm.symm.trans ((congrArg readPlaces hparts.2).trans hn)
  omega

theorem roundHalfUp_intCast (k : ℤ) : roundHalfUp k = k := by
  have h : ∀ j : ℤ, ⌊(j : ℚ) + 1 / 2⌋ = j := fun j => by
    rw [Int.floor_eq_iff]
    constructor <;> linarith
  unfold roundHalfUp
  split
  · exact h k
  · have := h (-k)
    push_cast at this
    rw [this, neg_neg]

theorem roundHalfUp_mono {x y : Dec} (h : x ≤ y) : roundHalfUp x ≤ roundHalfUp y := by
  unfold roundHalfUp
  split <;> split
  · exact Int.floor_le_floor (by linarith)
  · linarith
  · have h1 : 0 ≤ ⌊-x + 1 / 2⌋ := Int.floor_nonneg.2 (by linarith)
    have h2 : 0 ≤ ⌊y + 1 / 2⌋ := Int.floor_nonneg.2 (by linarith)
    omega
  · exact neg_le_neg (Int.floor_le_floor (by linarith))

/-- A value that a `DecimalField` with this many places holds. -/
def Exact (places : ℕ) (x : Dec) : Prop := ∃ k : ℤ, x = k / 10 ^ places

/-- A value of a `DecimalField` with four places. -/
structure Column where
  val : Dec
  exact : Exact 4 val

instance : DecidableEq Column := fun x y =>
  decidable_of_iff (x.val = y.val) ⟨fun h => by cases x; cases y; cases h; rfl, congrArg _⟩

section
variable {places : ℕ} {x y : Dec}

theorem exact_quantize (places : ℕ) (x : Dec) : Exact places (quantize places x) := ⟨_, rfl⟩

theorem Exact.quantize_eq (h : Exact places x) : quantize places x = x := by
  obtain ⟨k, rfl⟩ := h
  have : (k : ℚ) / 10 ^ places * 10 ^ places = k := by field_simp
  rw [quantize, this, roundHalfUp_intCast]

theorem quantize_mono (h : x ≤ y) : quantize places x ≤ quantize places y := by
  have h10 : (0 : ℚ) < 10 ^ places := by positivity
  refine div_le_div_of_nonneg_right ?_ h10.le
  exact_mod_cast roundHalfUp_mono (mul_le_mul_of_nonneg_right h h10.le)

theorem exact_zero : Exact places 0 := ⟨0, by simp⟩

theorem quantize_nonneg (h : 0 ≤ x) : 0 ≤ quantize places x := by
  have hmono : quantize places 0 ≤ quantize places x := quantize_mono h
  rwa [exact_zero.quantize_eq] at hmono

theorem abs_roundHalfUp_sub_le (x : Dec) : |(roundHalfUp x : Dec) - x| ≤ 1 / 2 := by
  unfold roundHalfUp
  split
  · have hle := Int.floor_le (x + 1 / 2)
    have hlt := Int.lt_floor_add_one (x + 1 / 2)
    exact abs_le.2 ⟨by linarith, by linarith⟩
  · have hle := Int.floor_le (-x + 1 / 2)
    have hlt := Int.lt_floor_add_one (-x + 1 / 2)
    push_cast
    exact abs_le.2 ⟨by linarith, by linarith⟩

/-- Rounding moves an amount by half a unit of the last place at most. -/
theorem abs_quantize_sub_le (places : ℕ) (x : Dec) : |quantize places x - x| ≤ 1 / (2 * 10 ^ places) := by
  have h10 : (0 : ℚ) < 10 ^ places := by positivity
  have hdiff : quantize places x - x = ((roundHalfUp (x * 10 ^ places) : Dec) - x * 10 ^ places) / 10 ^ places := by
    rw [quantize]
    field_simp
  rw [hdiff, abs_div, abs_of_pos h10, ← div_div]
  exact div_le_div_of_nonneg_right (abs_roundHalfUp_sub_le _) h10.le

theorem Exact.add (hx : Exact places x) (hy : Exact places y) : Exact places (x + y) := by
  obtain ⟨j, rfl⟩ := hx
  obtain ⟨k, rfl⟩ := hy
  exact ⟨j + k, by push_cast; ring⟩

theorem Exact.neg (hx : Exact places x) : Exact places (-x) := by
  obtain ⟨j, rfl⟩ := hx
  exact ⟨-j, by push_cast; ring⟩

theorem Exact.sub (hx : Exact places x) (hy : Exact places y) : Exact places (x - y) := by
  rw [sub_eq_add_neg]
  exact hx.add hy.neg

theorem Exact.min (hx : Exact places x) (hy : Exact places y) : Exact places (min x y) := by
  rcases min_choice x y with h | h <;> rw [h] <;> assumption

theorem Exact.max (hx : Exact places x) (hy : Exact places y) : Exact places (max x y) := by
  rcases max_choice x y with h | h <;> rw [h] <;> assumption

end

end Dec

end Apartments
