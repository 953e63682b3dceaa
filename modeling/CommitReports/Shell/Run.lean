import CommitReports.Shell.Script
import CommitReports.Shell.Tools

/-!
# Running a script

A script runs over the files, an input that its commands read one after the
other, and an output that they add to. It ends with a status, or is killed by a
signal that one of its commands sends to the shell. Commands of a pipeline run
one after the other, each on the output of the one before it.
-/

namespace CommitReports.Shell

/-! ## How a process ends -/

/-- How a child ended. -/
inductive ExitStatus where
  | exited (code : Nat)
  | killed (signal : Nat)
  deriving DecidableEq, Repr

/-- The signals by their names. -/
def signals : List (String × Nat) :=
  [("HUP", 1), ("INT", 2), ("QUIT", 3), ("ILL", 4), ("TRAP", 5), ("ABRT", 6), ("BUS", 7),
    ("FPE", 8), ("KILL", 9), ("USR1", 10), ("SEGV", 11), ("USR2", 12), ("PIPE", 13),
    ("ALRM", 14), ("TERM", 15)]

/-- A status as it is reported. -/
def ExitStatus.describe : ExitStatus → String
  | .exited code => s!"exit status: {code}"
  | .killed signal =>
    match signals.find? (·.2 == signal) with
    | some (name, _) => s!"signal: {signal} (SIG{name})"
    | none => s!"signal: {signal}"

/-! ## The state of a run -/

/-- A script in the middle of its run. -/
structure RunState where
  files : Files
  /-- The input that is not read yet. -/
  input : ByteArray
  /-- The output so far. -/
  output : ByteArray := .empty
  /-- The status of the last command. -/
  status : Nat := 0
  /-- How the shell ended, if it did. -/
  ended : Option ExitStatus := none
  parameters : List (String × String) := []

/-- The text of a word; none for a word of which nothing is left. -/
def RunState.expand (s : RunState) (word : Word) : Option String :=
  let text := String.join (word.map fun
    | .text chars => String.ofList chars
    | .nothing => ""
    | .processId => "$"
    | .lastStatus => toString s.status
    | .parameter name => (s.parameters.lookup (String.ofList name)).getD "")
  let solid := word.any fun
    | .parameter _ => false
    | _ => true
  if text = "" ∧ !solid then none else some text

/-! ## Redirections -/

/-- Where a command's output goes. -/
inductive OutputTarget where
  | standard
  | nowhere
  | file (place : Place)

/-- A command's streams once its redirections are made. -/
structure Streams where
  /-- The input that stands in for the shell's. -/
  input : Option ByteArray := none
  output : OutputTarget := .standard

/-- The file that takes whatever is written to it, and gives nothing. -/
def nullFile : String := "/dev/null"

/-- Makes one redirection: files that are written are emptied, or made. -/
def redirect (s : RunState) (streams : Streams) (r : Redirect) : Option (RunState × Streams) := do
  let target := (s.expand r.target).getD ""
  let toOutput (s : RunState) (output : OutputTarget) : RunState × Streams :=
    if r.stream = 1 then (s, { streams with output }) else (s, streams)
  match r.kind with
  | .input =>
    if target = nullFile then return (s, { streams with input := some .empty })
    let bytes ← (s.files.read target).toOption
    return (s, { streams with input := some bytes })
  | .duplicate => return if target = "2" then toOutput s .nowhere else toOutput s streams.output
  | .output =>
    if target = nullFile then return toOutput s .nowhere
    let place ← (s.files.writable target).toOption
    return toOutput { s with files := s.files.store place .empty } (.file place)
  | .append =>
    if target = nullFile then return toOutput s .nowhere
    let place ← (s.files.writable target).toOption
    let files := if (s.files.find? place).isSome then s.files else s.files.store place .empty
    return toOutput { s with files } (.file place)

/-- Adds to a stream. -/
def RunState.write (s : RunState) (target : OutputTarget) (bytes : ByteArray) : RunState :=
  match target with
  | .standard => { s with output := s.output ++ bytes }
  | .nowhere => s
  | .file place =>
    match s.files.find? place with
    | some (.file content _) => { s with files := s.files.store place (content ++ bytes) }
    | _ => { s with files := s.files.store place bytes }

/-- Runs part of a script with redirections. A redirection that cannot be made takes the place of
the run. -/
def redirected (redirects : List Redirect) (body : RunState → RunState) (s : RunState) : RunState :=
  match redirects.foldlM (fun (s, streams) r => redirect s streams r) (s, {}) with
  | none => { s with status := 2 }
  | some (s', streams) =>
    let inner := body { s' with input := streams.input.getD s'.input, output := .empty }
    let after := { inner with
      input := if streams.input.isSome then s'.input else inner.input, output := s'.output }
    after.write streams.output inner.output

/-! ## Commands of the shell itself -/

/-- The number of a signal, by number or name. -/
def signalNumber (text : String) : Option Nat :=
  match text.toNat? with
  | some n => some n
  | none =>
    signals.lookup (if text.startsWith "SIG" then (text.drop 3).toString else text)

/-- The word that stands for the shell itself. -/
def shellProcess : String := "$"

/-- Sends a signal; only one to the shell itself has an effect. -/
def kill (arguments : List String) (s : RunState) : RunState :=
  let request := match arguments with
    | ["-s", name, process] => (signalNumber name).map fun n => (n, process)
    | [option, process] =>
      if option.startsWith "-" then
        (signalNumber (option.drop 1).toString).map fun n => (n, process)
      else none
    | [process] => some (15, process)
    | _ => none
  match request with
  | some (signal, process) =>
    if process ≠ shellProcess then { s with status := 1 }
    else if signal = 0 then { s with status := 0 }
    else { s with ended := some (.killed signal) }
  | none => { s with status := 2 }

/-- Ends the shell, with the last status unless told otherwise. -/
def exit (arguments : List String) (s : RunState) : RunState :=
  match arguments with
  | [] => { s with ended := some (.exited s.status) }
  | code :: _ =>
    match code.toNat? with
    | some n => { s with ended := some (.exited (n % 256)) }
    | none => { s with ended := some (.exited 2) }

/-- The name and the value of an assignment. -/
def assignment? (text : String) : Option (String × String) :=
  let name := text.toList.takeWhile isNameChar
  match text.toList.drop name.length with
  | '=' :: value =>
    if name ≠ [] ∧ !(name.head?.any Char.isDigit) then
      some (String.ofList name, String.ofList value)
    else none
  | _ => none

/-- Runs a simple command, its redirections being made. -/
def runWords (words : List String) (s : RunState) : RunState :=
  match words.dropWhile fun w => (assignment? w).isSome with
  | [] =>
    let parameters := (words.filterMap assignment?).reverse ++ s.parameters
    { s with parameters, status := 0 }
  | "exec" :: name :: arguments => runTool name arguments s true
  | "exit" :: arguments => exit arguments s
  | "kill" :: arguments => kill arguments s
  | name :: arguments => runTool name arguments s false
where
  /-- Runs a tool, in the shell's place if `last` is set. -/
  runTool (name : String) (arguments : List String) (s : RunState) (last : Bool) : RunState :=
    let s := match tools.lookup name with
      | some tool =>
        let r := tool arguments s.files s.input
        { s with files := r.files, input := r.unread, output := s.output ++ r.output,
                 status := r.status }
      | none => { s with status := 127 }
    if last then { s with ended := some (.exited s.status) } else s

/-! ## Running a script -/

/-- What the shell keeps of the run of a subshell: its own parameters, and whether it was killed. -/
def RunState.leaveSubshell (before after : RunState) : RunState :=
  let ended := match after.ended with
    | some (.killed signal) => some (ExitStatus.killed signal)
    | _ => none
  let status := match after.ended with
    | some (.exited code) => code
    | _ => after.status
  { after with parameters := before.parameters, ended, status }

/-- Runs a script. -/
def Script.run : Script → RunState → RunState
  | .nothing, s => { s with status := 0 }
  | .simple words redirects, s =>
    redirected redirects (runWords (words.filterMap s.expand)) s
  | .pipe first second, s =>
    let left := s.leaveSubshell (first.run { s with output := .empty })
    if left.ended.isSome then { left with output := s.output }
    else
      let right := left.leaveSubshell (second.run { left with input := left.output, output := s.output })
      { right with input := left.input }
  | .negation body, s =>
    let s := body.run s
    if s.ended.isSome then s else { s with status := if s.status = 0 then 1 else 0 }
  | .both first second, s =>
    let s := first.run s
    if s.ended.isSome ∨ s.status ≠ 0 then s else second.run s
  | .either first second, s =>
    let s := first.run s
    if s.ended.isSome ∨ s.status = 0 then s else second.run s
  | .sequence first second, s =>
    let s := first.run s
    if s.ended.isSome then s else second.run s
  | .group body redirects, s => redirected redirects body.run s
  | .subshell body redirects, s =>
    s.leaveSubshell (redirected redirects body.run s)

/-- What a shell leaves behind. -/
structure Finished where
  files : Files
  /-- The input that no command has read. -/
  unread : ByteArray
  output : ByteArray
  status : ExitStatus

/-- Runs a shell on a script's text. A text that is no script ends it with status 2. -/
def runShell (files : Files) (script : String) (input : ByteArray) : Finished :=
  match Script.parse? script with
  | none => { files, unread := input, output := .empty, status := .exited 2 }
  | some script =>
    let s := script.run { files, input }
    { files := s.files, unread := s.input, output := s.output,
      status := s.ended.getD (.exited s.status) }

end CommitReports.Shell
