import CommitReports.Git.Snapshot

/-!
# Differences between snapshots

A delta says what one path was and what it became. `Delta.between` lists the
deltas of two snapshots in the order of their paths; a path that did not change
has none. A file that became another type of file is told as two changes, its
end and a new beginning: `Delta.changes` splits deltas in this way, and
`Change.status` writes each change on one line.
-/

namespace CommitReports.Git

/-- What a path was and what it became. -/
structure Delta where
  path : String
  old : Option TreeFile
  new : Option TreeFile
  deriving DecidableEq, Repr

namespace Delta

/-- The paths of two snapshots, each one once and in order. -/
def paths (old new : Snapshot) : List String :=
  ((old ++ new).map (·.1)).eraseDups.mergeSort fun a b => decide (a ≤ b)

/-- The deltas from one snapshot to another. -/
def between (old new : Snapshot) : List Delta :=
  (paths old new).filterMap fun path =>
    let delta : Delta := { path, old := old.find? path, new := new.find? path }
    if delta.old = delta.new then none else some delta

end Delta

/-- What happened to a file. -/
inductive Change where
  | added (path : String) (new : TreeFile)
  | deleted (path : String) (old : TreeFile)
  | modified (path : String) (old new : TreeFile)
  deriving DecidableEq, Repr

/-- What happened to the files of a delta. -/
def Delta.changes (delta : Delta) : List Change :=
  match delta.old, delta.new with
  | none, none => []
  | none, some new => [.added delta.path new]
  | some old, none => [.deleted delta.path old]
  | some old, some new =>
    if old.mode.sameType new.mode then [.modified delta.path old new]
    else [.deleted delta.path old, .added delta.path new]

namespace Change

/-- The path of a change. -/
def path : Change → String
  | .added path _ => path
  | .deleted path _ => path
  | .modified path _ _ => path

/-- The file before the change. -/
def old : Change → Option TreeFile
  | .added _ _ => none
  | .deleted _ old => some old
  | .modified _ old _ => some old

/-- The file after the change. -/
def new : Change → Option TreeFile
  | .added _ new => some new
  | .deleted _ _ => none
  | .modified _ _ new => some new

/-- The letter that stands for a kind of change. -/
def letter : Change → String
  | .added .. => "A"
  | .deleted .. => "D"
  | .modified .. => "M"

/-- The mode of a file; zeros for none. -/
def modeText (file : Option TreeFile) : String :=
  match file with
  | some file => file.mode.octal
  | none => "000000"

/-- The first digits of the id of a file; zeros for none. -/
def idText (file : Option TreeFile) : String :=
  match file with
  | some file => file.id.abbreviation
  | none => ObjectId.zero.abbreviation

/-- The change as one line: modes, ids, the kind of change, and the path as it is. -/
def status (change : Change) : String :=
  ":" ++ modeText change.old ++ " " ++ modeText change.new ++ " " ++ idText change.old ++ "... " ++
    idText change.new ++ "... " ++ change.letter ++ "\t" ++ change.path ++ "\n"

end Change

end CommitReports.Git
