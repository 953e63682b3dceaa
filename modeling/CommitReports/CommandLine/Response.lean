import CommitReports.CommandLine.Arguments
import CommitReports.History.Git
import CommitReports.Mail
import CommitReports.Run
import CommitReports.Settings.Load

/-!
# The program's response

`respond` does what the arguments ask for. A run goes through three attempts, to
load the settings, to open the repository and to report; the first that fails ends
it, and `FailedAttempt.describe` tells everything that is known of the failure.
-/

namespace CommitReports

/-! ## Texts -/

/-- The settings file that is used if none is named. -/
def defaultSettingsFile : String := "announcer.toml"

/-- The text that help is given with. -/
def helpText : String :=
  "Send one report per new commit on each tracked branch\n" ++
  "\n" ++
  "Usage: announcer [OPTIONS]\n" ++
  "\n" ++
  "Options:\n" ++
  "  -n, --no-pull          Do not pull from the remote before looking for new commits\n" ++
  "  -d, --dry-run          Render reports but neither send them nor update the state file\n" ++
  "  -c, --config <CONFIG>  Path to config file (default: announcer.toml)\n" ++
  "  -h, --help             Print help\n" ++
  "  -V, --version          Print version"

/-- The text that tells the version. -/
def versionText : String := "announcer 0.1.0"

/-! ## Failures and endings -/

/-- A failure, and what was being done. -/
structure FailedAttempt where
  /-- What was being done, if that is worth telling. -/
  attempt : Option String := none
  failure : Failure
  deriving DecidableEq, Repr

/-- Everything that is known of a failure, from the attempt down to the cause. -/
def FailedAttempt.describe (failed : FailedAttempt) : String :=
  ": ".intercalate (failed.attempt.toList ++ [failed.failure.message] ++
    (failed.failure.cause?.map SystemError.message).toList)

/-- The line that tells of a failure. -/
def FailedAttempt.line (failed : FailedAttempt) : Text.Styled :=
  [(some .boldRed, "Error:"), (none, " " ++ failed.describe)]

/-- How the program ends. -/
inductive Ending where
  | completed
  | misused
  | failed (failed : FailedAttempt)
  deriving DecidableEq, Repr

/-- The status that the program ends with. -/
def Ending.status : Ending → Nat
  | .completed => 0
  | .failed _ => 1
  | .misused => 2

/-! ## Making a run -/

/-- The repositories at hand, and the command that reports are piped into. -/
abbrev Desk := Git.Workspace × MailCommand

/-- An action that can fail at an attempt. -/
abbrev Attempt (α : Type) := ExceptT FailedAttempt (StateM (Site Desk)) α

/-- An action whose failure is told together with what was being done. -/
def attempting {α : Type} (attempt : Option String) (act : Action Desk α) : Attempt α :=
  ExceptT.mk do
    match ← act.run with
    | .ok a => return .ok a
    | .error failure => return .error { attempt, failure }

/-- Makes the run that an invocation asks for and prints its summary. -/
def announce (env : Environment) (invocation : Invocation) : Attempt Unit := do
  let path := invocation.config.getD defaultSettingsFile
  let settings ← attempting (some s!"Could not load {path}") do
    Action.ofExcept (Settings.load env (← Action.files) path)
  attempting none (Action.debug s!"using state file {settings.stateFile}")
  attempting (some "Could not open repository")
    (Action.onFirst (Git.Workspace.openAt settings.repository settings.remote))
  attempting none do
    Action.onSecond (Action.change fun _ => { command := settings.transportCommand })
    let summary ←
      run settings { refresh := !invocation.noPull, dryRun := invocation.dryRun }
    summary.lines.forM Action.print

/-- What the program does with its arguments. -/
def respond (env : Environment) (arguments : List String) : StateM (Site Desk) Ending := do
  match Command.ofArguments? arguments with
  | none => return .misused
  | some .help => say helpText
  | some .version => say versionText
  | some (.run invocation) =>
    match ← (announce env invocation).run with
    | .ok () => return .completed
    | .error failed => return .failed failed
where
  /-- Prints a text. -/
  say (text : String) : StateM (Site Desk) Ending := do
    modify fun site => { site with notes := site.notes ++ [.line [(none, text)]] }
    return .completed

end CommitReports
