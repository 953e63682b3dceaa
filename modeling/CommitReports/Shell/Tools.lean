import CommitReports.Files.Basic

/-!
# Tools

The small programs that mail commands are made of. Each takes its arguments, the
files and its input, and gives its output, what it left unread, the files, and
its status. All of them work on bytes.
-/

namespace CommitReports.Shell

/-! ## What a tool is -/

/-- What a tool leaves behind. -/
structure ToolResult where
  output : ByteArray := .empty
  /-- The part of the input that was not read. -/
  unread : ByteArray := .empty
  files : Files
  status : Nat := 0

/-- A tool, by what it does with its arguments, the files and its input. -/
abbrev Tool := List String → Files → ByteArray → ToolResult

/-- The bytes of a list. -/
def ofBytes (bytes : List UInt8) : ByteArray := ⟨bytes.toArray⟩

/-- A tool that reads nothing and only has a status. -/
def statusTool (status : Nat) : Tool := fun _ files input => { unread := input, files, status }

/-! ## Writing files and texts -/

/-- Writes the named files and the input, one after the other. -/
def cat : Tool := fun arguments files input =>
  let step (r : ToolResult) (name : String) : ToolResult :=
    if name = "-" then { r with output := r.output ++ r.unread, unread := .empty }
    else match files.read name with
      | .ok bytes => { r with output := r.output ++ bytes }
      | .error _ => { r with status := 1 }
  let names := if arguments = [] then ["-"] else arguments
  names.foldl step { unread := input, files }

/-- A text with the usual escapes replaced. -/
def unescape : List Char → List Char
  | '\\' :: 'n' :: rest => '\n' :: unescape rest
  | '\\' :: 't' :: rest => '\t' :: unescape rest
  | '\\' :: 'r' :: rest => '\r' :: unescape rest
  | '\\' :: '\\' :: rest => '\\' :: unescape rest
  | c :: rest => c :: unescape rest
  | [] => []

/-- Writes its arguments with spaces between them, and a line end unless `-n` comes first. -/
def echo : Tool := fun arguments files input =>
  let (arguments, ending) := match arguments with
    | "-n" :: rest => (rest, "")
    | rest => (rest, "\n")
  let text := String.ofList (unescape (" ".intercalate arguments).toList) ++ ending
  { output := text.toUTF8, unread := input, files }

/-- A format with its places filled in from left to right. -/
def fillFormat : List Char → List String → List Char
  | '%' :: '%' :: rest, arguments => '%' :: fillFormat rest arguments
  | '%' :: 's' :: rest, argument :: more => argument.toList ++ fillFormat rest more
  | '%' :: 's' :: rest, [] => fillFormat rest []
  | '%' :: 'd' :: rest, argument :: more => argument.toList ++ fillFormat rest more
  | '%' :: 'd' :: rest, [] => '0' :: fillFormat rest []
  | c :: rest, arguments => c :: fillFormat rest arguments
  | [], _ => []

/-- Writes its arguments as a format says. -/
def printf : Tool := fun arguments files input =>
  match arguments with
  | [] => { unread := input, files, status := 2 }
  | format :: arguments =>
    let text := String.ofList (fillFormat (unescape format.toList) arguments)
    { output := text.toUTF8, unread := input, files }

/-! ## Parts of the input -/

/-- The count that an option gives, attached or after it. -/
def countOption (letter : String) : List String → Option Nat
  | [option] =>
    if option.startsWith ("-" ++ letter) then (option.drop 2).toString.toNat? else none
  | [option, count] => if option = "-" ++ letter then count.toNat? else none
  | _ => none

/-- The lines of some bytes, each with its end. -/
def byteLines (bytes : List UInt8) : List (List UInt8) :=
  bytes.foldr (fun b lines =>
    if b = 10 then [b] :: lines
    else match lines with
      | line :: more => (b :: line) :: more
      | [] => [[b]]) []

/-- The size of the blocks that lines are read in. -/
def blockSize : Nat := 8192

/-- Writes the first lines or bytes of its input, ten lines unless told otherwise. Bytes are read one
by one, lines a block at a time. -/
def head : Tool := fun arguments files input =>
  match countOption "c" arguments with
  | some count =>
    { output := input.extract 0 count, unread := input.extract count input.size, files }
  | none =>
    let count := (countOption "n" arguments).getD
      (match arguments with
        | [option] => if option.startsWith "-" then (option.drop 1).toString.toNat?.getD 10 else 10
        | _ => 10)
    let output := ofBytes ((byteLines input.toList).take count).flatten
    let consumed := (output.size + blockSize - 1) / blockSize * blockSize
    { output, unread := input.extract consumed input.size, files }

/-- Writes the last lines or bytes of its input, ten lines unless told otherwise. -/
def tail : Tool := fun arguments files input =>
  match countOption "c" arguments with
  | some count => { output := input.extract (input.size - count) input.size, files }
  | none =>
    let count := (countOption "n" arguments).getD 10
    let lines := byteLines input.toList
    { output := ofBytes (lines.drop (lines.length - count)).flatten, files }

/-! ## Counting -/

/-- A number, right-aligned in seven columns. -/
def inColumn (n : Nat) : String :=
  let text := toString n
  String.ofList (List.replicate (7 - text.length) ' ') ++ text

/-- The number of words among some bytes. -/
def countWords (bytes : List UInt8) : Nat :=
  let isSpace (b : UInt8) : Bool := b == 32 || (9 ≤ b && b ≤ 13)
  (bytes.foldl (fun (count, inWord) b =>
    if isSpace b then (count, false) else (if inWord then count else count + 1, true))
    (0, false)).1

/-- Counts lines, words or bytes of its input; all three unless told which. -/
def wc : Tool := fun arguments files input =>
  let bytes := input.toList
  let lines := bytes.countP (· == 10)
  let text := match arguments with
    | ["-c"] => toString input.size
    | ["-l"] => toString lines
    | ["-w"] => toString (countWords bytes)
    | _ => inColumn lines ++ " " ++ inColumn (countWords bytes) ++ " " ++ inColumn input.size
  { output := (text ++ "\n").toUTF8, files }

/-! ## Changing bytes -/

/-- The characters that a set stands for: ranges and the usual escapes are written out. -/
def characterSet : List UInt8 → List UInt8
  | 92 :: 110 :: rest => 10 :: characterSet rest
  | 92 :: 116 :: rest => 9 :: characterSet rest
  | 92 :: c :: rest => c :: characterSet rest
  | a :: 45 :: b :: rest =>
    (List.range (b.toNat + 1 - a.toNat)).map (fun n => (a.toNat + n).toUInt8) ++ characterSet rest
  | a :: rest => a :: characterSet rest
  | [] => []

/-- The sets that can be named between brackets. -/
def namedSet (name : String) : List UInt8 :=
  let text := match name with
    | "[:upper:]" => "A-Z"
    | "[:lower:]" => "a-z"
    | "[:digit:]" => "0-9"
    | "[:alpha:]" => "A-Za-z"
    | "[:alnum:]" => "0-9A-Za-z"
    | "[:space:]" => "\t-\r "
    | other => other
  characterSet text.toUTF8.toList

/-- Replaces bytes of one set by those of another, or deletes them. -/
def tr : Tool := fun arguments files input =>
  match arguments with
  | ["-d", set] =>
    let set := namedSet set
    { output := ofBytes (input.toList.filter fun b => !set.contains b), files }
  | [old, new] =>
    let old := namedSet old
    let new := namedSet new
    let replace (b : UInt8) : UInt8 :=
      match old.idxOf? b, new.getLast? with
      | some i, some last => new.getD i last
      | _, _ => b
    { output := ofBytes (input.toList.map replace), files }
  | _ => { unread := input, files, status := 1 }

/-! ## Copying and choosing -/

/-- Writes its input to its output and to the named files. -/
def tee : Tool := fun arguments files input =>
  let (appending, names) := match arguments with
    | "-a" :: names => (true, names)
    | names => (false, names)
  names.foldl (fun r name =>
    match r.files.writable name with
    | .ok place =>
      let before := if appending then (r.files.read name).toOption.getD .empty else .empty
      { r with files := r.files.store place (before ++ input) }
    | .error _ => { r with status := 1 }) { output := input, files }

/-- Whether some bytes stand in others. -/
def occursIn (part : List UInt8) : List UInt8 → Bool
  | [] => part.isEmpty
  | b :: rest => part.isPrefixOf (b :: rest) || occursIn part rest

/-- Writes the lines that hold a text. With `-c` their number, with `-q` nothing; with `-v` the lines
that do not hold it. -/
def grep : Tool := fun arguments files input =>
  let options := arguments.filter (·.startsWith "-")
  match arguments.filter (fun a => !a.startsWith "-") with
  | [pattern] =>
    let atStart := pattern.startsWith "^"
    let text := (if atStart then (pattern.drop 1).toString else pattern).toUTF8.toList
    let holds (line : List UInt8) : Bool :=
      if atStart then text.isPrefixOf line else occursIn text line
    let chosen := (byteLines input.toList).filter fun line =>
      holds line != options.contains "-v"
    let closed := chosen.map fun line => if line.getLast? = some 10 then line else line ++ [10]
    let output :=
      if options.contains "-q" then .empty
      else if options.contains "-c" then (toString chosen.length ++ "\n").toUTF8
      else ofBytes closed.flatten
    { output, files, status := if chosen.isEmpty then 1 else 0 }
  | _ => { unread := input, files, status := 2 }

/-! ## Changing files -/

/-- Removes the named files. -/
def rm : Tool := fun arguments files input =>
  let force := arguments.contains "-f"
  let names := arguments.filter fun a => !a.startsWith "-"
  names.foldl (fun r name =>
    match r.files.walk false name with
    | .ok (.entry place entry) =>
      if entry.isDirectory then { r with status := 1 } else { r with files := r.files.erase place }
    | _ => if force then r else { r with status := 1 }) { unread := input, files }

/-- Makes the named files where there are none. -/
def touch : Tool := fun arguments files input =>
  arguments.foldl (fun r name =>
    match r.files.walk true name with
    | .ok (.vacant place) => { r with files := r.files.store place .empty }
    | .ok (.entry ..) => r
    | .error _ => { r with status := 1 }) { unread := input, files }

/-- Makes the named directories. -/
def mkdir : Tool := fun arguments files input =>
  let names := arguments.filter (· != "-p")
  names.foldl (fun r name =>
    match r.files.walk true name with
    | .ok (.vacant place) => { r with files := r.files.put place .directory }
    | .ok (.entry _ .directory) =>
      if arguments.contains "-p" then r else { r with status := 1 }
    | _ => { r with status := 1 }) { unread := input, files }

/-! ## All tools -/

/-- The tools by their names. -/
def tools : List (String × Tool) :=
  [("cat", cat), ("echo", echo), ("printf", printf), ("true", statusTool 0), (":", statusTool 0),
    ("false", statusTool 1), ("sleep", statusTool 0), ("head", head), ("tail", tail), ("wc", wc),
    ("tr", tr), ("tee", tee), ("grep", grep), ("rm", rm), ("touch", touch), ("mkdir", mkdir)]

end CommitReports.Shell
