import CommitReports.Action

/-!
# Sinks

A sink takes rendered reports. A report counts as delivered once the sink has
taken it. A mailbox is the sink that keeps every report, and that can be told to
refuse all of them from some number on.
-/

namespace CommitReports

/-- What takes reports. -/
class Sink (κ : Type) where
  /-- Takes the report on a commit. -/
  deliver : (commit message : String) → Action κ Unit

/-- A sink that keeps every report. -/
structure Mailbox where
  /-- What the mailbox is called when it refuses a report. -/
  name : String
  /-- The hashes of the commits whose reports were delivered, in order. -/
  commits : List String := []
  /-- The reports that were delivered, in order. -/
  messages : List String := []
  /-- How many more reports are taken before all are refused, and why they are. -/
  refusal : Option (Nat × String) := none
  deriving DecidableEq, Repr

namespace Mailbox

/-- The mailbox with one report more. -/
def add (box : Mailbox) (commit message : String) : Mailbox :=
  { box with commits := box.commits ++ [commit], messages := box.messages ++ [message] }

/-- Keeps the report, or refuses it. -/
def deliver (commit message : String) : Action Mailbox Unit := do
  let box ← Action.resource
  match box.refusal with
  | some (0, reason) => throw (.undelivered box.name commit (.other reason))
  | some (n + 1, reason) =>
    Action.change fun box => { box.add commit message with refusal := some (n, reason) }
  | none => Action.change fun box => box.add commit message

instance : Sink Mailbox := ⟨deliver⟩

end Mailbox

end CommitReports
