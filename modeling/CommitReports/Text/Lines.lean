/-!
# Lines of a text

A line ends at a line feed, or at a carriage return followed by one; the ending
belongs to no line. A text that ends in a line feed has no empty line after it,
so `lines (unlines ls) = ls` for lines without line ends.
-/

namespace CommitReports.Text

/-- The lines of a text, without their ends. -/
def lines : List Char → List (List Char)
  | [] => []
  | '\n' :: rest => [] :: lines rest
  | '\r' :: '\n' :: rest => [] :: lines rest
  | c :: rest =>
    match lines rest with
    | [] => [[c]]
    | line :: more => (c :: line) :: more

/-- The lines of a text, without their ends. -/
def linesOf (text : String) : List String := (lines text.toList).map String.ofList

/-- A text that has each given line, ended by a line feed. -/
def unlines (ls : List String) : String := ls.foldl (fun text line => text ++ line ++ "\n") ""

/-- A text without the line feed at its end, if it has one; only one is dropped. -/
def dropFinalNewline (text : String) : String :=
  if text.endsWith "\n" then (text.dropEnd 1).toString else text

end CommitReports.Text
