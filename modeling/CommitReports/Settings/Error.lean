/-!
# What is wrong with settings

Each way in which a settings document can be refused, with its wording.
-/

namespace CommitReports

/-- Why settings are refused. -/
inductive SettingsError where
  /-- The document is no TOML. -/
  | malformed
  /-- A value has the wrong type. -/
  | mistyped (found expected : String)
  /-- A field that must be given is missing. -/
  | missing (field : String)
  /-- A field that must be a mail address has no at sign. -/
  | noAddress (field value : String)
  /-- A field holds nothing but white space. -/
  | blank (field : String)
  /-- A path names an environment variable that is not set. -/
  | unknownVariable (path name : String)
  | other (text : String)
  deriving DecidableEq, Repr

/-- The name of the settings document. -/
def settingsFile : String := "announcer.toml"

/-- The wording of an error. -/
def SettingsError.message : SettingsError → String
  | .malformed => s!"Failed to parse {settingsFile}: syntax"
  | .mistyped found expected =>
    s!"Failed to parse {settingsFile}: invalid type: {found}, expected {expected}"
  | .missing field => s!"Failed to parse {settingsFile}: missing field \x60{field}\x60"
  | .noAddress field value => s!"{field} must be a mail address, got '{value}'"
  | .blank field => s!"{field} must not be empty"
  | .unknownVariable path name =>
    s!"Cannot expand '{path}': error looking key '{name}' up: environment variable not found"
  | .other text => text

end CommitReports
