import CommitReports.Commit
import CommitReports.Text.Blank
import CommitReports.Text.Lines

/-!
# The state file

The state file holds one line for each tracked branch: the branch and the hash of
its watermark, with a space between them. Loading takes any white space between
and around the two fields, passes over blank lines, and verifies both names;
saving writes one plain line for each watermark and replaces the file as a whole.
-/

namespace CommitReports.Watermarks

/-- What a line of a state file says. -/
inductive Line where
  | blank
  | mark (branch hash : String)
  | malformed
  deriving DecidableEq, Repr

/-- Reads a line: it holds two fields, or none. -/
def Line.read (line : String) : Line :=
  match Text.fields line with
  | [] => .blank
  | [branch, hash] => .mark branch hash
  | _ => .malformed

/-- The content of a state file: a line for each watermark. -/
def render (watermarks : List Commit) : String := Text.unlines (watermarks.map Commit.line)

variable {ρ : Type} [History ρ]

/-- The watermark of a branch and a hash, both verified: the branch resolves, is local if that is
asked for, and the hash resolves. -/
def verified (localOnly : Bool) (branch hash : String) : Action ρ Commit := do
  let branch ← if localOnly then Branch.lookupLocal branch else Branch.lookup branch
  Commit.lookup hash branch

/-- The watermarks of the lines of a state file, the first of which has the given number. The first
fault of the first faulty line counts. -/
def readLines (path : String) (localOnly : Bool) :
    (number : Nat) → List String → Action ρ (List Commit)
  | _, [] => return []
  | number, line :: rest => do
    match Line.read line with
    | .blank => readLines path localOnly (number + 1) rest
    | .malformed => throw (.malformedLine path number line)
    | .mark branch hash =>
      let watermark ← verified localOnly branch hash
      let more ← readLines path localOnly (number + 1) rest
      return watermark :: more

/-- The watermarks of a state file, in order. -/
def load (path : String) (localOnly : Bool) : Action ρ (List Commit) := do
  match (← Action.files).readText path with
  | .error e => throw (.inaccessible path e)
  | .ok text =>
    let watermarks ← readLines path localOnly 1 (Text.linesOf text)
    Action.debug s!"loaded {watermarks.length} watermark(s) from {path}"
    return watermarks

/-- Replaces the state file by one that holds the given watermarks. -/
def save {ρ : Type} (path : String) (watermarks : List Commit) : Action ρ Unit := do
  let (result, files) := (← Action.files).replace path (render watermarks).toUTF8
  Action.setFiles files
  match result with
  | .error (place, e) => throw (.inaccessible place e)
  | .ok () => Action.debug s!"saved {watermarks.length} watermark(s) to {path}"

end CommitReports.Watermarks
