import CommitReports.Discovery
import CommitReports.Report
import CommitReports.Settings.Basic
import CommitReports.Summary
import CommitReports.Watermarks

/-!
# Runs

A run fetches what is new if it is asked to, loads the watermarks, reports on
each line of the state file in turn the commits that came since its watermark,
and saves the watermarks it has reached. A failure ends the run before anything
is saved, so the next run starts from the same watermarks. A dry run asks all the
same questions but delivers and saves nothing.
-/

namespace CommitReports

/-- How a run is to be made. -/
structure RunOptions where
  /-- Fetch from the remote first. -/
  refresh : Bool := false
  /-- Make the reports but neither deliver them nor save the watermarks. -/
  dryRun : Bool := false
  deriving DecidableEq, Repr

variable {ρ κ : Type} [History ρ] [Sink κ]

/-- The addresses that the settings name. -/
def Settings.correspondence (s : Settings) : Correspondence :=
  { sender := s.sender, recipient := s.recipient }

/-- What became of one watermark: the watermark that follows it, and the summary of its line. -/
structure Advance where
  current : Commit
  summary : BranchSummary
  deriving DecidableEq, Repr

/-- The advance of a watermark over commits that were reported. -/
def Advance.over (watermark : Commit) (commits : List Commit) : Advance :=
  let current := commits.getLast?.getD watermark
  { current
    summary := { branch := watermark.branch.name, previous := watermark.hash,
                 current := current.hash, reported := commits.length } }

/-- Reports the commits that came since a watermark. -/
def advance (settings : Settings) (dryRun : Bool) (watermark : Commit) :
    Action (ρ × κ) Advance := do
  let commits ← Action.onFirst (discover watermark settings.checkoutBranches)
  commits.forM (dispatchCommit settings.correspondence dryRun)
  return .over watermark commits

/-- Fetches what is new if that is asked for, and loads the watermarks. -/
def prepare (settings : Settings) (options : RunOptions) : Action ρ (List Commit) := do
  if options.refresh then
    Action.info s!"refreshing from '{settings.remote}'"
    History.refresh
  Watermarks.load settings.stateFile settings.checkoutBranches

/-- Saves the watermarks that were reached, unless the run is a dry one, and sums up. -/
def conclude {ρ : Type} (settings : Settings) (dryRun : Bool) (advances : List Advance) :
    Action ρ Summary := do
  let branches := advances.map (·.summary)
  if dryRun then
    Action.info s!"dry run: not writing {settings.stateFile}"
    return { branches, persisted := false }
  else
    Watermarks.save settings.stateFile (advances.map (·.current))
    return { branches, persisted := true }

/-- Makes a run. -/
def run (settings : Settings) (options : RunOptions) : Action (ρ × κ) Summary := do
  let watermarks ← Action.onFirst (prepare settings options)
  let advances ← watermarks.mapM (advance settings options.dryRun)
  conclude settings options.dryRun advances

end CommitReports
