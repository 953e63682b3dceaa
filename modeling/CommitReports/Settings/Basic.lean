import CommitReports.Settings.Error
import CommitReports.Text.Blank
import CommitReports.Toml.Document

/-!
# Settings

What a run is told: the two addresses, the mail command, the repository and its
remote, and the state file. `Settings.ofEntries` takes them from the keys of a
document: a key that names a field must hold a value of the field's type, keys
that name no field are passed over, a field that is not given has its default.
The first fault counts, in this order: wrong types as they stand in the document,
missing fields, contents.
-/

namespace CommitReports

/-- What a run is told. -/
structure Settings where
  /-- The address that reports are sent from. -/
  sender : String
  /-- The address that reports are sent to. -/
  recipient : String
  /-- The shell command that each report is piped into. -/
  transportCommand : String := "sendmail -t"
  debugLogging : Bool := false
  /-- A path inside the tracked working tree. -/
  repository : String := "."
  /-- The remote that is fetched from. -/
  remote : String := "origin"
  stateFile : String := ".announcer.lastcommit"
  /-- Whether each branch is checked out before it is looked at. -/
  checkoutBranches : Bool := false
  deriving DecidableEq, Repr

namespace Settings

/-- The types that a field can have. -/
inductive FieldType where
  | text
  | path
  | boolean
  deriving DecidableEq, Repr

/-- How a field's type is referred to. -/
def FieldType.describe : FieldType → String
  | .text => "a string"
  | .path => "path string"
  | .boolean => "a boolean"

/-- Whether a value has a field's type. -/
def FieldType.fits : FieldType → Toml.Value → Bool
  | .text, .string _ => true
  | .path, .string _ => true
  | .boolean, .boolean _ => true
  | _, _ => false

/-- The fields and their types. -/
def fieldTypes : List (String × FieldType) :=
  [("sender", .text), ("recipient", .text), ("transport_command", .text),
    ("debug_logging", .boolean), ("repository", .path), ("remote", .text),
    ("state_file", .path), ("checkout_branches", .boolean)]

/-- The fault of a key with its value, taken alone. -/
def typeFault (key : String) (value : Toml.Value) : Option SettingsError :=
  match fieldTypes.lookup key with
  | none => none
  | some type => if type.fits value then none else some (.mistyped value.describe type.describe)

/-- The text that a field holds. -/
def textAt (entries : Toml.Entries) (field : String) : Option String :=
  match entries.lookup field with
  | some (.string text) => some text
  | _ => none

/-- The truth value that a field holds. -/
def flagAt (entries : Toml.Entries) (field : String) : Option Bool :=
  match entries.lookup field with
  | some (.boolean b) => some b
  | _ => none

/-- The first fault of the settings' contents. -/
def fault (s : Settings) : Option SettingsError :=
  if !s.sender.contains '@' then some (.noAddress "sender" s.sender)
  else if !s.recipient.contains '@' then some (.noAddress "recipient" s.recipient)
  else if Text.allBlank s.transportCommand then some (.blank "transport_command")
  else if Text.allBlank s.remote then some (.blank "remote")
  else none

/-- The settings that the keys of a document give, faults of their contents aside. -/
def gather (entries : Toml.Entries) : Except SettingsError Settings :=
  match textAt entries "sender", textAt entries "recipient" with
  | none, _ => .error (.missing "sender")
  | some _, none => .error (.missing "recipient")
  | some sender, some recipient =>
    let base : Settings := { sender, recipient }
    .ok { base with
      transportCommand := (textAt entries "transport_command").getD base.transportCommand
      debugLogging := (flagAt entries "debug_logging").getD base.debugLogging
      repository := (textAt entries "repository").getD base.repository
      remote := (textAt entries "remote").getD base.remote
      stateFile := (textAt entries "state_file").getD base.stateFile
      checkoutBranches := (flagAt entries "checkout_branches").getD base.checkoutBranches }

/-- The settings that the keys of a document give. -/
def ofEntries (entries : Toml.Entries) : Except SettingsError Settings :=
  match entries.findSome? fun (key, value) => typeFault key value with
  | some e => .error e
  | none =>
    match gather entries with
    | .error e => .error e
    | .ok settings =>
      match settings.fault with
      | some e => .error e
      | none => .ok settings

/-- The settings that a document gives, paths as they are written. -/
def parse (text : String) : Except SettingsError Settings :=
  match Toml.parse? text with
  | none => .error .malformed
  | some entries => ofEntries entries

end Settings

end CommitReports
