import CommitReports.Text.Styled

/-!
# Notes

What an action says while it runs: records for a log, and what it prints on
standard output. Notes of both kinds stand in one list, in the order in which
they were made.
-/

namespace CommitReports

/-- How important a log record is. -/
inductive Level where
  | debug
  | info
  | warn
  deriving DecidableEq, Repr

/-- The name of a level. -/
def Level.name : Level → String
  | .debug => "DEBUG"
  | .info => "INFO"
  | .warn => "WARN"

/-- One thing that an action says. -/
inductive Note where
  /-- A record for the log. -/
  | record (level : Level) (text : String)
  /-- A line on standard output. -/
  | line (text : Text.Styled)
  /-- Output of a child, as it is. -/
  | output (text : String)
  deriving DecidableEq, Repr

/-- The log records among some notes, each with its level in front. -/
def Note.records (notes : List Note) : List String :=
  notes.filterMap fun
    | .record level text => some (level.name ++ " " ++ text)
    | _ => none

/-- What some notes print on standard output. -/
def Note.printed (colour : Bool) (notes : List Note) : String :=
  String.join (notes.map fun
    | .record .. => ""
    | .line text => text.render colour ++ "\n"
    | .output text => text)

end CommitReports
