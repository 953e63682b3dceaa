/-!
# Hexadecimal digits

The digits to base sixteen, of either case, and the bytes that pairs of them
spell.
-/

namespace CommitReports.Text

/-- Whether a character is a digit to base sixteen. -/
def isHexDigit (c : Char) : Bool :=
  c.isDigit || ('a' ≤ c && c ≤ 'f') || ('A' ≤ c && c ≤ 'F')

/-- The value of a digit to base sixteen. -/
def hexValue (c : Char) : Nat :=
  if c.isDigit then c.toNat - '0'.toNat else c.toLower.toNat - 'a'.toNat + 10

/-- The byte that two digits spell. -/
def hexByte (a b : Char) : UInt8 := (hexValue a * 16 + hexValue b).toUInt8

/-- The bytes that pairs of digits spell. -/
def hexBytes : List Char → List UInt8
  | a :: b :: rest => hexByte a b :: hexBytes rest
  | _ => []

/-- Two digits spell one byte. -/
theorem length_hexBytes : ∀ cs : List Char, (hexBytes cs).length = cs.length / 2
  | [] => rfl
  | [_] => by simp [hexBytes]
  | _ :: _ :: rest => by
    simp only [hexBytes, List.length_cons, length_hexBytes rest]
    omega

end CommitReports.Text
