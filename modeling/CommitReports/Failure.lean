import CommitReports.Settings.Error
import CommitReports.SystemError
import CommitReports.Text.Quoted

/-!
# Failures

Why an action could not be completed. `Failure.message` is the wording; the same
failure has the same wording wherever it arises.
-/

namespace CommitReports

/-- Why an action could not be completed. -/
inductive Failure where
  /-- A name stands for no commit, or not for exactly one. -/
  | unresolvable (revision : String)
  /-- A line of a state file has not exactly two fields. -/
  | malformedLine (path : String) (number : Nat) (line : String)
  /-- A commit is the first of its history. -/
  | noParent (hash : String)
  /-- The history cannot be asked or changed. -/
  | unavailable (reason : String)
  /-- A report could not be handed over. -/
  | undelivered (command commit : String) (cause : SystemError)
  /-- A file could not be read or written. -/
  | inaccessible (path : String) (cause : SystemError)
  /-- The settings are refused. -/
  | unsettled (cause : SettingsError)
  deriving DecidableEq, Repr

namespace Failure

/-- The wording of a failure. -/
def message : Failure → String
  | .unresolvable revision => s!"Cannot resolve revision '{revision}'"
  | .malformedLine path number line =>
    s!"Malformed state line {number} in {path}: " ++ Text.quote line
  | .noParent hash => s!"Commit {hash} has no parent"
  | .unavailable reason => s!"Backend unavailable: {reason}"
  | .undelivered command commit cause =>
    s!"Failed to hand report for {commit} to '{command}': " ++ cause.message
  | .inaccessible path cause => s!"I/O error on {path}: " ++ cause.message
  | .unsettled cause => "Invalid configuration: " ++ cause.message

/-- Whether a failure only says that a commit is the first of its history. -/
def isNoParent : Failure → Bool
  | .noParent _ => true
  | _ => false

/-- What lies behind a failure, as far as the system says so. -/
def cause? : Failure → Option SystemError
  | .undelivered _ _ cause => some cause
  | .inaccessible _ cause => some cause
  | _ => none

end Failure

end CommitReports
