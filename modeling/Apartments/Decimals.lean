import Apartments.Money
import Apartments.Text
import Mathlib.Data.Int.Log

/-!
# Decimals with an exponent

A `Decimal` is a sign, a coefficient and an exponent. The exponent is seen only in `format(x, "f")`, whose text `parse`
(the constructor `Decimal(text)`) reads back to the same value. Arithmetic goes by the values: the default context rounds
to 28 digits, ties to even, and raises where a result does not fit.
-/

namespace Apartments

structure Decimal where
  negative : Bool
  coefficient : ℕ
  exponent : ℤ
deriving DecidableEq

namespace Decimal

def value (d : Decimal) : Dec := (if d.negative then -1 else 1) * d.coefficient * 10 ^ d.exponent

/-! ### Texts -/

/-- The digits of `format(x, "f")`. -/
def digits (coefficient : ℕ) (exponent : ℤ) : String :=
  if 0 ≤ exponent then (coefficient * 10 ^ exponent.toNat).repr
  else
    let places := (-exponent).toNat
    (coefficient / 10 ^ places).repr ++ "." ++ Dec.padded places (coefficient % 10 ^ places)

/-- `format(x, "f")`. -/
def format (d : Decimal) : String := (if d.negative then "-" else "") ++ digits d.coefficient d.exponent

/-- What a text denotes; an infinity or a NaN is not finite. -/
inductive Number
  | finite (d : Decimal)
  | special
deriving DecidableEq

def readDigits (cs : List Char) : ℕ := Nat.ofDigitChars 10 cs 0

/-- A sign and what comes after it. -/
def readSign : List Char → Bool × List Char
  | '-' :: cs => (true, cs)
  | '+' :: cs => (false, cs)
  | cs => (false, cs)

/-- The fraction after a point, and what comes after it. -/
def readFraction : List Char → List Char × List Char
  | '.' :: cs => (cs.takeWhile Char.isDigit, cs.dropWhile Char.isDigit)
  | cs => ([], cs)

/-- The exponent that ends a text. -/
def readExponent : List Char → Option ℤ
  | [] => some 0
  | c :: cs =>
    let (negative, ds) := readSign cs
    if c.toLower = 'e' ∧ ds ≠ [] ∧ ds.all Char.isDigit then
      some (if negative then -(readDigits ds : ℤ) else readDigits ds)
    else none

/-- The names of the infinities and the NaNs, which may carry digits. -/
def isSpecial (cs : List Char) : Bool :=
  let name := String.ofList ((cs.map Char.toLower).takeWhile fun c => !c.isDigit)
  let rest := cs.dropWhile fun c => !c.isDigit
  (["inf", "infinity"].contains name && rest.isEmpty) || (["nan", "snan"].contains name && rest.all Char.isDigit)

/-- `Decimal(text)`, with ASCII digits; `none` is an `InvalidOperation`. -/
def parse (text : String) : Option Number :=
  let (negative, cs) := readSign ((Text.strip text).toList.filter (· != '_'))
  let whole := cs.takeWhile Char.isDigit
  let (fraction, rest) := readFraction (cs.dropWhile Char.isDigit)
  if whole ++ fraction = [] then if isSpecial cs then some .special else none
  else
    (readExponent rest).map fun k => .finite ⟨negative, readDigits (whole ++ fraction), k - fraction.length⟩

example : parse " -1_2.50e3" = some (.finite ⟨true, 1250, 1⟩) := by decide +kernel

/-! ### Reading a text back -/

theorem readDigits_repr (n : ℕ) : readDigits n.repr.toList = n := by
  rw [readDigits, Nat.toList_repr, Nat.ofDigitChars_ten_toDigits]

theorem readDigits_append (l m : List Char) : readDigits (l ++ m) = readDigits l * 10 ^ m.length + readDigits m := by
  rw [readDigits, Nat.ofDigitChars_append, Nat.ofDigitChars_eq_ofDigitChars_zero, Nat.mul_comm]
  rfl

theorem readDigits_padded (width n : ℕ) : readDigits (Dec.padded width n).toList = n := by
  rw [Dec.padded, String.toList_append, String.toList_ofList, readDigits, Nat.ofDigitChars_append,
    Nat.ofDigitChars_replicate_zero, Nat.mul_zero]
  exact readDigits_repr n

theorem length_padded {width n : ℕ} (hwidth : 0 < width) (hn : n < 10 ^ width) :
    (Dec.padded width n).toList.length = width := by
  have hle : n.repr.length ≤ width := (Nat.length_repr_le_iff hwidth).2 hn
  rw [Dec.padded, String.toList_append, String.toList_ofList, List.length_append, List.length_replicate,
    String.length_toList]
  omega

theorem repr_ne_nil (n : ℕ) : n.repr.toList ≠ [] := by
  intro h
  have hpos := Nat.length_repr_pos (n := n)
  rw [← String.length_toList, h] at hpos
  exact absurd hpos (lt_irrefl 0)

theorem isDigit_repr {c : Char} {n : ℕ} (hc : c ∈ n.repr.toList) : c.isDigit = true := by
  rw [Nat.toList_repr] at hc
  exact Nat.isDigit_of_mem_toDigits (by decide) (by decide) hc

theorem isDigit_padded {c : Char} {width n : ℕ} (hc : c ∈ (Dec.padded width n).toList) : c.isDigit = true := by
  rw [Dec.padded, String.toList_append, String.toList_ofList] at hc
  rcases List.mem_append.1 hc with hc | hc
  · rw [List.eq_of_mem_replicate hc]
    decide
  · exact isDigit_repr hc

theorem isDigit_not_space {c : Char} (hc : c.isDigit = true) : Text.isSpace c = false := by
  have h : 48 ≤ c.toNat ∧ c.toNat ≤ 57 := by simpa [Char.isDigit, UInt32.le_iff_toNat_le] using hc
  simp only [Text.isSpace]
  grind

/-- A text without white space is its own `strip()`. -/
theorem strip_of_nonspace {s : String} (h : ∀ c ∈ s.toList, Text.isSpace c = false) : Text.strip s = s := by
  have hdrop : ∀ l : List Char, (∀ c ∈ l, Text.isSpace c = false) → l.dropWhile Text.isSpace = l := by
    intro l hl
    cases l with
    | nil => rfl
    | cons c l => rw [List.dropWhile_cons_of_neg (by simp [hl c (by simp)])]
  rw [Text.strip, hdrop _ h, hdrop _ (by simpa using h), List.reverse_reverse, String.ofList_toList]

/-- The characters of a formatted number. -/
def numeral (c : Char) : Bool := c.isDigit || c == '-' || c == '.'

theorem numeral_nonspace {c : Char} (hc : numeral c = true) : Text.isSpace c = false ∧ c ≠ '_' := by
  simp only [numeral, Bool.or_eq_true, beq_iff_eq] at hc
  rcases hc with (hc | rfl) | rfl
  · refine ⟨isDigit_not_space hc, ?_⟩
    rintro rfl
    simp at hc
  · decide
  · decide

theorem numeral_digits {c : Char} {n : ℕ} {e : ℤ} (hc : c ∈ (digits n e).toList) : numeral c = true := by
  unfold digits at hc
  split at hc
  · simp [numeral, isDigit_repr hc]
  · simp only [String.toList_append, List.mem_append] at hc
    rcases hc with (hc | hc) | hc
    · simp [numeral, isDigit_repr hc]
    · rw [show c = '.' by simpa using hc]
      decide
    · simp [numeral, isDigit_padded hc]

theorem numeral_format {c : Char} {d : Decimal} (hc : c ∈ d.format.toList) : numeral c = true := by
  rw [format, String.toList_append] at hc
  rcases List.mem_append.1 hc with hc | hc
  · split at hc
    · rw [show c = '-' by simpa using hc]
      decide
    · simp at hc
  · exact numeral_digits hc

/-- What the reader keeps of a formatted number. -/
theorem kept_format (d : Decimal) : (Text.strip d.format).toList.filter (· != '_') = d.format.toList := by
  rw [strip_of_nonspace fun c hc => (numeral_nonspace (numeral_format hc)).1, List.filter_eq_self]
  intro c hc
  simpa using (numeral_nonspace (numeral_format hc)).2

/-- What the text of a decimal denotes: without a positive exponent. -/
def plain (d : Decimal) : Decimal :=
  if 0 ≤ d.exponent then ⟨d.negative, d.coefficient * 10 ^ d.exponent.toNat, 0⟩ else d

theorem value_plain (d : Decimal) : d.plain.value = d.value := by
  unfold plain
  split
  · rename_i h
    obtain ⟨k, hk⟩ := Int.eq_ofNat_of_zero_le h
    simp [value, hk]
  · rfl

theorem readSign_format (d : Decimal) :
    readSign d.format.toList = (d.negative, (digits d.coefficient d.exponent).toList) := by
  have hhead : ∀ cs : List Char, (∀ c ∈ cs.head?, c.isDigit = true) → readSign cs = (false, cs) := by
    intro cs hcs
    unfold readSign
    split
    · exact absurd (hcs '-' rfl) (by decide)
    · exact absurd (hcs '+' rfl) (by decide)
    · rfl
  rw [format, String.toList_append]
  cases d.negative with
  | true => rfl
  | false =>
    refine hhead _ fun c hc => ?_
    have hc : (digits d.coefficient d.exponent).toList.head? = some c := by simpa using hc
    have hrepr : ∀ (n : ℕ) (t : List Char), (n.repr.toList ++ t).head? = some c → c.isDigit = true := by
      intro n t h
      obtain ⟨x, l, hx⟩ := List.exists_cons_of_ne_nil (repr_ne_nil n)
      rw [hx] at h
      obtain rfl : x = c := by simpa using h
      exact isDigit_repr (n := n) (hx ▸ List.mem_cons_self)
    unfold digits at hc
    split at hc
    · exact hrepr _ [] (by simpa using hc)
    · rw [String.toList_append, String.toList_append, List.append_assoc] at hc
      exact hrepr _ _ hc

theorem parse_format (d : Decimal) : parse d.format = some (.finite d.plain) := by
  have htake : ∀ l r : List Char, (∀ c ∈ l, c.isDigit = true) → (∀ c ∈ r.head?, c.isDigit = false) →
      (l ++ r).takeWhile Char.isDigit = l ∧ (l ++ r).dropWhile Char.isDigit = r := by
    intro l r hl hr
    rw [List.takeWhile_append_of_pos hl, List.dropWhile_append_of_pos hl]
    cases r with
    | nil => simp
    | cons c r => simp [hr c rfl]
  unfold parse plain
  rw [kept_format, readSign_format]
  dsimp only
  unfold digits
  split
  · obtain ⟨ht, hd⟩ := htake _ [] (fun c hc => isDigit_repr (n := d.coefficient * 10 ^ d.exponent.toNat) hc) (by simp)
    rw [List.append_nil] at ht hd
    rw [ht, hd]
    simp only [readFraction, List.append_nil, repr_ne_nil, if_false, readExponent, Option.map_some, readDigits_repr,
      List.length_nil, Nat.cast_zero, sub_zero]
  · rename_i hneg
    have hplaces : 0 < (-d.exponent).toNat := by omega
    generalize hp : (-d.exponent).toNat = p at hplaces
    have hpadded := htake (Dec.padded p (d.coefficient % 10 ^ p)).toList [] (fun c hc => isDigit_padded hc) (by simp)
    obtain ⟨ht, hd⟩ := htake (d.coefficient / 10 ^ p).repr.toList
      ('.' :: (Dec.padded p (d.coefficient % 10 ^ p)).toList) (fun c hc => isDigit_repr hc) (by simp)
    have hlen := length_padded hplaces (Nat.mod_lt d.coefficient (by positivity : 0 < 10 ^ p))
    have hcoefficient : d.coefficient / 10 ^ p * 10 ^ p + d.coefficient % 10 ^ p = d.coefficient :=
      Nat.div_add_mod' ..
    rw [List.append_nil] at hpadded
    rw [String.toList_append, String.toList_append, List.append_assoc, show ".".toList = ['.'] from rfl,
      List.singleton_append, ht, hd]
    simp only [readFraction, hpadded.1, hpadded.2, List.append_eq_nil_iff, repr_ne_nil, false_and, if_false, readExponent,
      Option.map_some, readDigits_append, readDigits_repr, readDigits_padded, hlen, hcoefficient]
    have hexponent : (0 : ℤ) - p = d.exponent := by omega
    rw [hexponent]

/-! ### Arithmetic -/

/-- What the context traps. -/
inductive Trap
  | invalidOperation | overflow | divisionByZero
deriving DecidableEq, Repr

/-- A result in the default context: 28 digits, fewer near the least exponent. -/
def rounded (x : Dec) : Except Trap Dec :=
  if x = 0 then .ok 0
  else
    let places := min (27 - Int.log 10 |x|) 1000026
    let y : Dec := (Dec.roundHalfEven (x * 10 ^ places) : Dec) / 10 ^ places
    if 999999 < Int.log 10 |y| then .error .overflow else .ok y

/-- `x / y`. -/
def divide (x y : Dec) : Except Trap Dec :=
  if y = 0 then .error (if x = 0 then .invalidOperation else .divisionByZero) else rounded (x / y)

/-- `x * y`. -/
def multiply (x y : Dec) : Except Trap Dec := rounded (x * y)

/-- `x.quantize(Decimal(10) ** -places, rounding=ROUND_HALF_UP)`, which has to fit the precision. -/
def quantized (places : ℕ) (x : Dec) : Except Trap Decimal :=
  let scaled := Dec.roundHalfUp (x * 10 ^ places)
  if scaled.natAbs < 10 ^ 28 then .ok ⟨decide (x < 0), scaled.natAbs, -places⟩ else .error .invalidOperation

/-- A result is not negative if what it is rounded from is not. -/
theorem rounded_nonneg {x y : Dec} (hx : 0 ≤ x) (h : rounded x = .ok y) : 0 ≤ y := by
  have hround : ∀ z : Dec, 0 ≤ z → (0 : Dec) ≤ Dec.roundHalfEven z := by
    intro z hz
    have hfloor : 0 ≤ ⌊z⌋ := Int.floor_nonneg.2 hz
    unfold Dec.roundHalfEven
    split
    · exact_mod_cast hfloor
    · exact_mod_cast hfloor.trans (Int.le_add_one le_rfl)
  unfold rounded at h
  dsimp only at h
  split_ifs at h <;> cases h
  · rfl
  · have hpow : ∀ places : ℤ, (0 : Dec) ≤ 10 ^ places := fun places => zpow_nonneg (by norm_num) places
    exact div_nonneg (hround _ (mul_nonneg hx (hpow _))) (hpow _)

theorem value_quantized {places : ℕ} {x : Dec} {d : Decimal} (h : quantized places x = .ok d) :
    d.value = Dec.quantize places x := by
  unfold quantized at h
  dsimp only at h
  split at h <;> cases h
  have hsign : (if decide (x < 0) then (-1 : Dec) else 1) * ((Dec.roundHalfUp (x * 10 ^ places)).natAbs : Dec) =
      Dec.roundHalfUp (x * 10 ^ places) := by
    have hzero : Dec.roundHalfUp 0 = 0 := by simpa using Dec.roundHalfUp_intCast 0
    rw [← Int.cast_natCast, Int.natCast_natAbs]
    by_cases hx : x < 0
    · have hle : Dec.roundHalfUp (x * 10 ^ places) ≤ 0 :=
        hzero ▸ Dec.roundHalfUp_mono (mul_nonpos_of_nonpos_of_nonneg hx.le (by positivity))
      rw [abs_of_nonpos hle]
      simp [hx]
    · have hge : 0 ≤ Dec.roundHalfUp (x * 10 ^ places) :=
        hzero ▸ Dec.roundHalfUp_mono (mul_nonneg (not_lt.1 hx) (by positivity))
      rw [abs_of_nonneg hge]
      simp [hx]
  rw [value, hsign, Dec.quantize]
  simp [div_eq_mul_inv]

/-- An amount that has the places already is quantized to itself. -/
theorem quantized_value {places : ℕ} {x : Dec} {d : Decimal} (hx : 0 ≤ x) (h : quantized places x = .ok d) :
    0 ≤ d.value ∧ quantized places d.value = .ok d := by
  have hscaled : Dec.quantize places x * 10 ^ places = (Dec.roundHalfUp (x * 10 ^ places) : Dec) := by
    rw [Dec.quantize, div_mul_cancel₀ _ (by positivity)]
  have hnonneg : 0 ≤ Dec.quantize places x := by
    have hmono : Dec.quantize places 0 ≤ Dec.quantize places x := Dec.quantize_mono hx
    rwa [Dec.exact_zero.quantize_eq] at hmono
  rw [value_quantized h]
  refine ⟨hnonneg, ?_⟩
  rw [← h]
  simp only [quantized, hscaled, Dec.roundHalfUp_intCast, not_lt.2 hnonneg, not_lt.2 hx]

end Decimal

end Apartments
