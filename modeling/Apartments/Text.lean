import Mathlib.Data.List.Basic

/-!
# Text functions of the language

`strip` and `casefold` of Python strings, as far as comparisons with ASCII constants can see them: every
character whose folding is ASCII is folded, any other character stays outside ASCII and compares unequal.
-/

namespace Apartments.Text

/-- `str.isspace` of one character. -/
def isSpace (c : Char) : Bool :=
  let n := c.toNat
  (9 ≤ n && n ≤ 13) || (28 ≤ n && n ≤ 32) || n == 0x85 || n == 0xa0 || n == 0x1680 || (0x2000 ≤ n && n ≤ 0x200a) ||
    n == 0x2028 || n == 0x2029 || n == 0x202f || n == 0x205f || n == 0x3000

/-- `s.strip()`. -/
def strip (s : String) : String :=
  String.ofList ((s.toList.dropWhile isSpace).reverse.dropWhile isSpace).reverse

def foldChar (c : Char) : List Char :=
  match c.toNat with
  | 0x17f => ['s']
  | 0x212a => ['k']
  | 0xdf | 0x1e9e => ['s', 's']
  | 0xfb00 => ['f', 'f']
  | 0xfb01 => ['f', 'i']
  | 0xfb02 => ['f', 'l']
  | 0xfb03 => ['f', 'f', 'i']
  | 0xfb04 => ['f', 'f', 'l']
  | 0xfb05 | 0xfb06 => ['s', 't']
  | _ => [c.toLower]

/-- `s.casefold()`. -/
def casefold (s : String) : String := String.ofList (s.toList.flatMap foldChar)

example : casefold (strip "  Confirmed ") = "confirmed" := by decide

def upperChar (c : Char) : List Char :=
  match c.toNat with
  | 0x131 => ['I']
  | 0x17f => ['S']
  | 0xdf => ['S', 'S']
  | 0xfb00 => ['F', 'F']
  | 0xfb01 => ['F', 'I']
  | 0xfb02 => ['F', 'L']
  | 0xfb03 => ['F', 'F', 'I']
  | 0xfb04 => ['F', 'F', 'L']
  | 0xfb05 | 0xfb06 => ['S', 'T']
  | _ => [c.toUpper]

/-- `s.upper()`. -/
def upper (s : String) : String := String.ofList (s.toList.flatMap upperChar)

example : upper "mad" = "MAD" := by decide

end Apartments.Text
