import CommitReports.Text.Styled

/-!
# Summaries

What a run has done: for each tracked branch the watermarks before and after it
and the number of reports, and whether the new watermarks were saved.
-/

namespace CommitReports

/-- What a run has done for one line of the state file. -/
structure BranchSummary where
  branch : String
  /-- The watermark before the run. -/
  previous : String
  /-- The watermark after the run. -/
  current : String
  /-- The number of reports. -/
  reported : Nat
  deriving DecidableEq, Repr

/-- What a run has done. -/
structure Summary where
  branches : List BranchSummary
  /-- Whether the new watermarks were saved. -/
  persisted : Bool
  deriving DecidableEq, Repr

/-- The number of reports of a run. -/
def Summary.total (s : Summary) : Nat := (s.branches.map (·.reported)).foldr (· + ·) 0

/-- The line that is printed for a branch. -/
def BranchSummary.line (b : BranchSummary) : Text.Styled :=
  if b.reported = 0 then
    [(some .dimmed, "•"), (none, " "), (some .cyan, b.branch), (none, " "),
      (some .dimmed, "up to date")]
  else
    let plural := if b.reported = 1 then "" else "s"
    [(some .green, "✓"), (none, " "), (some .cyan, b.branch), (none, " "),
      (some .dimmed, b.previous), (none, s!" → {b.current} ({b.reported} commit{plural})")]

/-- The lines that are printed for a run. -/
def Summary.lines (s : Summary) : List Text.Styled :=
  s.branches.map BranchSummary.line ++
    if s.persisted then [] else [[(some .yellow, "State file left untouched")]]

end CommitReports
