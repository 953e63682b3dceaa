import CommitReports.Failure
import CommitReports.Files.Basic
import CommitReports.Settings.Basic
import CommitReports.Settings.Expansion

/-!
# Loading settings from a file

The two paths among the settings are expanded and, unless that makes them
absolute, taken from the directory that holds the settings file.
-/

namespace CommitReports.Settings

/-- A path of the settings as seen from the directory `base`. -/
def anchor (env : Environment) (base path : String) : Except SettingsError String :=
  (expandPath env path).map (Path.join base)

/-- The settings with both paths as seen from the directory `base`. -/
def anchored (s : Settings) (env : Environment) (base : String) :
    Except SettingsError Settings := do
  let repository ← anchor env base s.repository
  let stateFile ← anchor env base s.stateFile
  return { s with repository, stateFile }

/-- The settings that the file at a path gives. -/
def load (env : Environment) (files : Files) (path : String) : Except Failure Settings :=
  match files.readText path with
  | .error e => .error (.inaccessible path e)
  | .ok text =>
    match parse text with
    | .error e => .error (.unsettled e)
    | .ok settings =>
      match settings.anchored env (Path.directory path) with
      | .error e => .error (.unsettled e)
      | .ok settings => .ok settings

end CommitReports.Settings
