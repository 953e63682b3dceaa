import CommitReports.Shell.Run
import CommitReports.Sink
import CommitReports.Text.Utf8

/-!
# Mail commands

A mail command is a sink that pipes each report into a shell command. The report
counts as delivered once the command has been given all of it; how the command
ends is only noted. A command that ends without reading more than fits in the
pipe refuses the report.
-/

namespace CommitReports

/-- A shell command that takes reports on its input. -/
structure MailCommand where
  command : String
  deriving DecidableEq, Repr

namespace MailCommand

/-- The number of bytes that a pipe holds before anyone reads them. -/
def pipeCapacity : Nat := 65536

/-- Pipes the report into the command. -/
def deliver (commit message : String) : Action MailCommand Unit := do
  let command := (← Action.resource).command
  Action.debug s!"{command} < report for {commit}"
  if command.contains '\x00' then throw (.undelivered command commit .nulInCommand)
  let finished := Shell.runShell (← Action.files) command message.toUTF8
  Action.setFiles finished.files
  if finished.output.size ≠ 0 then
    Action.say (.output (Text.decodeLossy finished.output))
  if pipeCapacity < finished.unread.size then throw (.undelivered command commit .brokenPipe)
  if finished.status ≠ .exited 0 then
    Action.warn s!"'{command}' exited with {finished.status.describe} for {commit}"

instance : Sink MailCommand := ⟨deliver⟩

end MailCommand

end CommitReports
