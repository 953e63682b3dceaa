/-!
# Ranges of code points

A character class of the Unicode standard is kept as the list of its ranges of
code points, both ends included. `RangeTable.has` asks whether a character lies
in one of them.
-/

namespace CommitReports.Text

/-- Ranges of code points, both ends included, in ascending order. -/
abbrev RangeTable := Array (Nat × Nat)

/-- Whether some range of the table holds the character. -/
def RangeTable.has (table : RangeTable) (c : Char) : Bool :=
  table.any fun range => range.1 ≤ c.toNat && c.toNat ≤ range.2

end CommitReports.Text
