import CommitReports.Text.Visible

/-!
# Quoted text

A text between double quotes, in which every character can be told by eye: the
quote, the backslash and the usual controls have short escapes, and a character
that does not show by itself is written by its code point, `\u{200b}`.
-/

namespace CommitReports.Text

/-- The digits of a number to base sixteen, in lower case. -/
def hexDigits (n : Nat) : String := String.ofList (Nat.toDigits 16 n)

/-- How one character is written inside double quotes. -/
def escapeChar (c : Char) : String :=
  match c with
  | '\x00' => "\\0"
  | '\t' => "\\t"
  | '\n' => "\\n"
  | '\r' => "\\r"
  | '"' => "\\\""
  | '\\' => "\\\\"
  | _ => if isVisible c then c.toString else "\\u\x7b" ++ hexDigits c.toNat ++ "\x7d"

/-- The text between double quotes, with the escapes of `escapeChar`. -/
def quote (text : String) : String :=
  "\"" ++ String.join (text.toList.map escapeChar) ++ "\""

end CommitReports.Text
