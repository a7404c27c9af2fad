import Mathlib.Data.List.Basic

/-!
# Result codes of HyperPay (`payments/hyperpay/result_codes.py`)

A value of a provider document is `text` when it is a JSON string and `other` when it is any other value
that is not `null`; a missing key reads as `null`. `mapResultCode` folds every such value into one of six
classes.
-/

namespace Apartments.HyperPay

/-- What `document.get(key)` gives: only strings are looked at. -/
inductive Json
  | null
  | text (s : String)
  | other
deriving DecidableEq, Repr

namespace Json

/-- `_safe_text`: `value[:max_length] if isinstance(value, str) else ""`. -/
def safeText (maxLength : ℕ) : Json → String
  | text s => String.ofList (s.toList.take maxLength)
  | _ => ""

/-- `_safe_optional_text`: `value[:max_length] if isinstance(value, str) and value else None`. -/
def safeOptionalText (maxLength : ℕ) : Json → Option String
  | text s => if s = "" then none else some (String.ofList (s.toList.take maxLength))
  | _ => none

end Json

inductive HyperPayStatus
  | pending | success | failed | cancelled | review | unknown
deriving DecidableEq, Repr

/-- The first code point of every block of ten decimal digits that `\d` matches in a `str` pattern. -/
def digitBlocks : List ℕ :=
  [0x30, 0x660, 0x6f0, 0x7c0, 0x966, 0x9e6, 0xa66, 0xae6, 0xb66, 0xbe6, 0xc66, 0xce6, 0xd66, 0xde6, 0xe50,
   0xed0, 0xf20, 0x1040, 0x1090, 0x17e0, 0x1810, 0x1946, 0x19d0, 0x1a80, 0x1a90, 0x1b50, 0x1bb0, 0x1c40,
   0x1c50, 0xa620, 0xa8d0, 0xa900, 0xa9d0, 0xa9f0, 0xaa50, 0xabf0, 0xff10, 0x104a0, 0x10d30, 0x11066,
   0x110f0, 0x11136, 0x111d0, 0x112f0, 0x11450, 0x114d0, 0x11650, 0x116c0, 0x11730, 0x118e0, 0x11950,
   0x11c50, 0x11d50, 0x11da0, 0x11f50, 0x16a60, 0x16ac0, 0x16b50, 0x1d7ce, 0x1d7d8, 0x1d7e2, 0x1d7ec,
   0x1d7f6, 0x1e140, 0x1e2f0, 0x1e4f0, 0x1e950, 0x1fbf0]

/-- `\d`. -/
def isDecimal (c : Char) : Bool := digitBlocks.any fun first => first ≤ c.toNat && c.toNat < first + 10

/-- `_VALID_CODE.fullmatch`: three groups of three digits separated by dots. -/
def validCode (code : String) : Bool :=
  match code.toList with
  | [a, b, c, p, d, e, f, q, g, h, i] => p == '.' && q == '.' && [a, b, c, d, e, f, g, h, i].all isDecimal
  | _ => false

/-- A pattern anchored at the start, without alternatives. -/
def hasPrefix (code pre : String) : Bool := pre.toList.isPrefixOf code.toList

/-- `_SUCCESS.match`. -/
def successCode (code : String) : Bool :=
  ["000.000.", "000.100.1", "000.3", "000.6", "000.400.110", "000.400.120"].any (hasPrefix code)

/-- `_REVIEW.match`; the first alternative wants one more character, which is not `3`. -/
def reviewCode (code : String) : Bool :=
  (hasPrefix code "000.400.0" && (code.toList[9]?).any (· != '3')) || hasPrefix code "000.400.100"

/-- `_PENDING.match`. -/
def pendingCode (code : String) : Bool := ["000.200.", "800.400.5", "100.400.500"].any (hasPrefix code)

/-- `_CANCELLED`. -/
def cancelledCodes : List String := ["100.396.101", "100.396.102", "100.396.103", "100.396.104"]

/-- `map_result_code`. -/
def mapResultCode : Json → HyperPayStatus
  | .text code =>
    if !validCode code then .unknown
    else if cancelledCodes.contains code then .cancelled
    else if reviewCode code then .review
    else if successCode code then .success
    else if pendingCode code then .pending
    else .failed
  | _ => .unknown

example : mapResultCode (.text "000.400.020") = .review ∧ mapResultCode (.text "000.100.110") = .success := by
  decide

end Apartments.HyperPay
