import CommitReports.CommandLine.Response

/-!
# The program

Reads the settings file that the arguments name, lets `respond` decide what is to
be said, and says it. All that is decided is decided there.
-/

namespace CommitReports.Program

/-- The settings file that a command needs. -/
def settingsPath? : Option Command → Option String
  | some (.run invocation) => some (invocation.config.getD defaultSettingsFile)
  | _ => none

/-- The files that the program starts with: the settings file, if it can be read. -/
def startFiles (arguments : List String) : IO Files := do
  let here := (← IO.currentDir).toString
  let files := Files.empty ((Files.segmentsOf here).filter (· ≠ ""))
  match settingsPath? (Command.ofArguments? arguments) with
  | none => return files
  | some path =>
    match ← (IO.FS.readBinFile path).toBaseIO with
    | .ok content => return (files.provide path content).toOption.getD files
    | .error _ => return files

/-- The variables of the environment that the settings file names. -/
def environment (files : Files) (arguments : List String) : IO Environment := do
  let text := (settingsPath? (Command.ofArguments? arguments)).bind fun path =>
    (files.readText path).toOption
  let names := variableNames (text.getD "")
  let bindings ← names.filterMapM fun name => do
    return (← IO.getEnv name).map fun value => (name, value)
  return { home := (← IO.getEnv "HOME").getD "/", bindings }

end CommitReports.Program

open CommitReports in
/-- Does what the arguments ask for. -/
def main (arguments : List String) : IO UInt32 := do
  let colour ← (← IO.getStdout).isTty
  let files ← Program.startFiles arguments
  let env ← Program.environment files arguments
  let (ending, site) := (respond env arguments).run { resource := ({}, ⟨""⟩), files }
  IO.print (Note.printed colour site.notes)
  match ending with
  | .completed => pure ()
  | .misused => IO.eprintln helpText
  | .failed attempt => IO.eprintln (attempt.line.render colour)
  return ending.status.toUInt32
