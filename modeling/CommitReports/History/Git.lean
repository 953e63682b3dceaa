import CommitReports.Calendar
import CommitReports.Git.Checkout
import CommitReports.Git.Patch
import CommitReports.Git.Refresh
import CommitReports.History.Basic
import CommitReports.Text.Lines

/-!
# The history of a git repository

A workspace answers the questions of a history from the repository that is worked
with. What a commit changed is told from the tree of its first parent on, or from
nothing where it has none; the same deltas are the basis of the lines at the end
of `whatChanged` and of the patch that `diff` gives.
-/

namespace CommitReports.Git

/-- What a commit says of itself: id, author and date, the message moved to the right, and a line
for each change. -/
def CommitInfo.summary (info : CommitInfo) (id : ObjectId) (deltas : List Delta) : String :=
  let author := info.author
  let text (bytes : List UInt8) : Option String := Text.decode? ⟨bytes.toArray⟩
  let message := ((text info.message).map Text.linesOf).getD []
  Text.dropFinalNewline
    (s!"commit {id.hex}\n" ++
      "Author: " ++ (text author.name).getD "Unknown" ++ " <" ++ (text author.email).getD "" ++ ">\n" ++
      "Date:   " ++ Calendar.text author.seconds (author.offset * 60) ++ "\n\n" ++
      Text.unlines (message.map fun line => "    " ++ line) ++ "\n" ++ statusText deltas)

namespace Workspace

/-- The name of the tree that has no entries. -/
def emptyTree : String := "4b825dc642cb6eb9a060e54bf8d69288fbee4904"

/-- The commit that a name leads to. -/
def resolve (name : String) : Action Workspace String := do
  Action.debug s!"git rev-list -n 1 {name}"
  return (← commitNamed name).hex

/-- The commits that `upto` leads to and `since` does not. -/
def commitsBetween (since upto : String) : Action Workspace (List String) := do
  Action.debug s!"git rev-list {since}..{upto}"
  let hidden ← commitNamed since
  let tip ← commitNamed upto
  match (← present).commitsBetween hidden tip with
  | .ok ids => return ids.map (·.hex)
  | .error fault => throw (.unavailable fault.message)

/-- What a commit says. -/
def infoOf (commit : ObjectId) : Action Workspace CommitInfo := do
  match (← present).objects.commit commit with
  | .ok info => return info
  | .error .notCommit =>
    throw (.unavailable "the requested type does not match the type in the ODB")
  | .error fault => throw (.unavailable fault.message)

/-- The first parent of a commit. -/
def parent (name : String) : Action Workspace (Option String) := do
  Action.debug s!"git rev-list -n 1 {name}^"
  let info ← infoOf (← commitNamed name)
  return info.parents.head?.map (·.hex)

/-- The files of a commit. -/
def filesOf (commit : ObjectId) : Action Workspace Snapshot := do
  return ((← present).snapshot? commit).getD []

/-- What a commit says of itself, and what it changed. -/
def whatChanged (name : String) : Action Workspace String := do
  Action.debug s!"git whatchanged -n 1 {name}"
  let commit ← commitNamed name
  let info ← infoOf commit
  let before ← match info.parents with
    | [] => pure []
    | first :: _ => do
      let _ ← infoOf first
      filesOf first
  return info.summary commit (Delta.between before (← filesOf commit))

/-- The patch from one commit, or from nothing, to another. -/
def diff (base : Option String) (tip : String) : Action Workspace String := do
  Action.debug (s!"git diff " ++ base.getD emptyTree ++ " " ++ tip)
  let before ← match base with
    | none => pure []
    | some name => do filesOf (← commitNamed name)
  let after ← filesOf (← commitNamed tip)
  return Text.dropFinalNewline (patchText (← present).objects (Delta.between before after))

/-- Whether a name is that of a local branch. -/
def hasLocalBranch (name : String) : Action Workspace Bool := do
  if name.contains '\x00' then
    throw (.unavailable "data contained a nul byte that could not be represented as a string")
  match RefName.ofBranch? name with
  | none => throw (.unavailable s!"cannot locate local branch \x27{name}\x27")
  | some ref => return ((← present).ref? ref).isSome

instance : History Workspace where
  resolve := resolve
  commitsBetween := commitsBetween
  parent := parent
  whatChanged := whatChanged
  diff := diff
  hasLocalBranch := hasLocalBranch
  checkout := checkout
  refresh := refresh

end Workspace

end CommitReports.Git
