import CommitReports.Number.Double
import CommitReports.Text.Quoted

/-!
# Values of a TOML document

A document is a table: keys with their values, in the order in which they first
occur. A table remembers how it came to be, because that decides which later
lines of the document may still add to it (`Toml.Table`).
-/

namespace CommitReports.Toml

/-- How a table came to be. -/
inductive Origin where
  /-- By a header of its own. -/
  | header
  /-- As a step on the way of another table's header. -/
  | implied
  /-- As a step of a dotted key. -/
  | dotted
  /-- Between braces, as a value. -/
  | inline
  deriving DecidableEq, Repr

/-- A value of a document. -/
inductive Value where
  | string (text : String)
  | integer (n : Int)
  | float (x : Double)
  | boolean (b : Bool)
  /-- A date, a time of day, or both. -/
  | moment
  | array (items : List Value)
  | table (origin : Origin) (entries : List (String × Value))
  /-- An array of tables that have headers of their own. -/
  | tables (elements : List (List (String × Value)))

/-- The keys of a table with their values, in order. -/
abbrev Entries := List (String × Value)

/-- How a value of an unexpected type is referred to. -/
def Value.describe : Value → String
  | .string text => "string " ++ Text.quote text
  | .integer n => "integer \x60" ++ toString n ++ "\x60"
  | .float x => "floating point \x60" ++ x.text ++ "\x60"
  | .boolean b => "boolean \x60" ++ toString b ++ "\x60"
  | .moment => "map"
  | .array _ => "sequence"
  | .table .. => "map"
  | .tables _ => "sequence"

end CommitReports.Toml
