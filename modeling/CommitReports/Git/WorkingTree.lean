import CommitReports.Files.Basic
import CommitReports.Git.Delta
import CommitReports.Git.Repository

/-!
# Working trees

A working tree is brought from one snapshot to another delta by delta. A file
that is not as the first snapshot has it, and would be lost, is a conflict; with
any conflict nothing is changed at all (`Worktree.change`). A file that both
snapshots have alike is left as it is. `Worktree.reset` makes the working tree
show a snapshot and nothing else.
-/

namespace CommitReports.Git

/-- The files below a directory that a repository shows its files in. -/
structure Worktree where
  files : Files
  root : Place

/-- What is done to the working tree for a delta. -/
inductive WorktreeStep where
  /-- Nothing is to be done. -/
  | leave
  | remove
  | write (file : TreeFile)
  /-- Something at a path would be lost. -/
  | conflict (path : String)
  deriving DecidableEq, Repr

namespace Worktree

/-! ## What stands in a working tree -/

/-- The place of a path. -/
def placeOf (worktree : Worktree) (path : String) : Place := worktree.root ++ Snapshot.names path

/-- What stands at a path. -/
def entry? (worktree : Worktree) (path : String) : Option Entry :=
  worktree.files.find? (worktree.placeOf path)

/-- Whether an entry is as a tree has it. -/
def holds (objects : ObjectStore) (entry : Entry) (file : TreeFile) : Bool :=
  match entry, file.mode with
  | .file content false, .regular => objects.blob? file.id == some content
  | .file content true, .executable => objects.blob? file.id == some content
  | .link target, .link => objects.blob? file.id == some target.toUTF8
  | .directory, .submodule => true
  | _, _ => false

/-- The paths that a path leads through. -/
def pathsAbove (path : String) : List String :=
  let names := Snapshot.names path
  (List.range (names.length - 1)).map fun n => Snapshot.joined (names.take (n + 1))

/-- The path at which no directory stands, though another path leads through it. -/
def blocker? (worktree : Worktree) (path : String) : Option String :=
  (pathsAbove path).find? fun above =>
    match worktree.entry? above with
    | some entry => !entry.isDirectory
    | none => false

/-- The paths of the files below a path. -/
def filesBelow (worktree : Worktree) (path : String) : List String :=
  (worktree.files.below (worktree.placeOf path)).filterMap fun (names, entry) =>
    if entry.isDirectory then none else some (path ++ "/" ++ Snapshot.joined names)

/-! ## What a delta asks for -/

/-- Whether a directory may make way for a file: nothing stands in it, or only files that are
known. -/
def canGo (worktree : Worktree) (before : Snapshot) (path : String) : Bool :=
  let files := worktree.filesBelow path
  (worktree.files.below (worktree.placeOf path)).isEmpty ||
    (!files.isEmpty && files.all fun below => (before.find? below).isSome)

/-- What is done for a file that comes into being. -/
def stepAdded (worktree : Worktree) (before : Snapshot) (path : String) (new : TreeFile) :
    WorktreeStep :=
  match worktree.blocker? path with
  | some above =>
    -- A known file in the way has a delta of its own, which removes it first.
    if (before.find? above).isSome then .write new else .conflict above
  | none =>
    match worktree.entry? path with
    | none => .write new
    | some .directory =>
      if worktree.canGo before path then .write new else .conflict path
    | some _ => .conflict path

/-- What is done for a file that ends. -/
def stepDeleted (worktree : Worktree) (objects : ObjectStore) (path : String) (old : TreeFile) :
    WorktreeStep :=
  match worktree.entry? path with
  | none => .leave
  | some .directory => if old.mode = .submodule then .remove else .leave
  | some entry => if holds objects entry old then .remove else .conflict path

/-- What is done for a file that becomes another one. -/
def stepModified (worktree : Worktree) (objects : ObjectStore) (path : String)
    (old new : TreeFile) : WorktreeStep :=
  match worktree.entry? path with
  -- The file was removed by hand: bringing it back would undo that.
  | none => if old.mode.sameType new.mode then .conflict path else .leave
  | some entry =>
    -- Nothing is lost if the file is as it was, or has the new content already.
    if holds objects entry old || holds objects entry { old with id := new.id } then .write new
    else .conflict path

/-- What is done for a delta. -/
def step (worktree : Worktree) (objects : ObjectStore) (before : Snapshot) (delta : Delta) :
    WorktreeStep :=
  match delta.old, delta.new with
  | none, none => .leave
  | none, some new => worktree.stepAdded before delta.path new
  | some old, none => worktree.stepDeleted objects delta.path old
  | some old, some new => worktree.stepModified objects delta.path old new

/-! ## Changing the files -/

/-- Removes the directories above a place that nothing stands in, up to the working tree's own. -/
def prune (root : Place) (files : Files) : (fuel : Nat) → Place → Files
  | 0, _ => files
  | fuel + 1, place =>
    if place.length ≤ root.length ∨ !(files.below place).isEmpty then files
    else prune root (files.erase place) fuel place.dropLast

/-- Removes what stands at a path, and the directories that are left empty. -/
def remove (worktree : Worktree) (path : String) : Worktree :=
  let place := worktree.placeOf path
  let files := worktree.files.erase place
  { worktree with files := prune worktree.root files place.length place.dropLast }

/-- Makes the directories that lead to a place, where they are missing. -/
def provideAbove (files : Files) (place : Place) : Files :=
  (List.range place.length).foldl (fun files n =>
    match files.find? (place.take n) with
    | some .directory => files
    | _ => files.put (place.take n) .directory) files

/-- The entry of a file. -/
def entryOf (objects : ObjectStore) (file : TreeFile) : Entry :=
  let content := (objects.blob? file.id).getD .empty
  match file.mode with
  | .regular => .file content false
  | .executable => .file content true
  | .link => .link ((String.fromUTF8? content).getD "")
  | .submodule => .directory
  | .directory => .directory

/-- Writes a file to its path. -/
def write (worktree : Worktree) (objects : ObjectStore) (path : String) (file : TreeFile) :
    Worktree :=
  let place := worktree.placeOf path
  { worktree with
    files := (provideAbove worktree.files place).put place (entryOf objects file) }

/-! ## Whole changes -/

/-- The steps from one snapshot to another, each with its path. -/
def steps (worktree : Worktree) (objects : ObjectStore) (before after : Snapshot) :
    List (String × WorktreeStep) :=
  (Delta.between before after).map fun delta =>
    (delta.path, worktree.step objects before delta)

/-- The paths at which something would be lost. -/
def conflictsOf (steps : List (String × WorktreeStep)) : List String :=
  (steps.filterMap fun (_, step) =>
    match step with
    | .conflict path => some path
    | _ => none).eraseDups

/-- Brings the working tree from one snapshot to another: first files are removed, then written.
With conflicts nothing is done, and their number is told. -/
def change (worktree : Worktree) (objects : ObjectStore) (before after : Snapshot) :
    Except Nat Worktree :=
  let steps := worktree.steps objects before after
  match conflictsOf steps with
  | [] =>
    -- Removing comes first, so that a directory can take the place of a file and the reverse.
    let removed := steps.foldl (fun worktree (path, step) =>
      match step with
      | .remove => worktree.remove path
      | _ => worktree) worktree
    .ok (steps.foldl (fun worktree (path, step) =>
      match step with
      | .write file => worktree.write objects path file
      | _ => worktree) removed)
  | conflicts => .error conflicts.length

/-- Removes all that stands in the working tree. -/
def clear (worktree : Worktree) : Worktree :=
  let files := worktree.files
  { worktree with files := { files with
      entries := files.entries.filter fun (place, _) =>
        !(decide (worktree.root.length < place.length) &&
          place.take worktree.root.length == worktree.root &&
          place[worktree.root.length]? != some Files.repositoryName) } }

/-- Makes the working tree show a snapshot and nothing else. -/
def reset (worktree : Worktree) (objects : ObjectStore) (snapshot : Snapshot) : Worktree :=
  snapshot.foldl (fun worktree (path, file) => worktree.write objects path file) worktree.clear

end Worktree

namespace Repository

/-! ## The working tree of a repository -/

/-- The object of a kind that a reference leads to, or why there is none. -/
def peelRef (repository : Repository) (name : String) (kind : ObjectKind) :
    Except String ObjectId :=
  match repository.target? name with
  | none => .error s!"the reference \x27{name}\x27 cannot be peeled - Cannot resolve reference"
  | some id =>
    if (repository.objects.kind? id).isNone then
      .error s!"the reference \x27{name}\x27 cannot be peeled - Cannot retrieve reference target"
    else match repository.objects.peelTo kind id with
      | some found => .ok found
      | none => .error (s!"the git_object of id \x27{id.hex}\x27 can not be successfully peeled " ++
          s!"into a {kind.name} (git_object_t={kind.number}).")

/-- The files that `HEAD` leads to, none if it leads nowhere yet. -/
def headSnapshot (repository : Repository) : Except String Snapshot :=
  match repository.headRef? with
  | none => .ok []
  | some name =>
    (repository.peelRef name .tree).map fun tree =>
      (Snapshot.ofTree repository.objects tree).getD []

/-- The files that the working tree is taken to show before a change. -/
def baseline (repository : Repository) : Except String Snapshot :=
  match repository.index with
  | none => .ok []
  | some _ => repository.headSnapshot

/-- The index after a change from one snapshot to another. -/
def indexAfter (index before after : Snapshot) : Snapshot :=
  (Delta.between before after).foldl (fun index delta =>
    match delta.new with
    | some new => index.put delta.path new
    | none => index.erase delta.path) index

/-- The wording for a number of conflicts. -/
def conflictText (n : Nat) : String :=
  if n = 1 then "1 conflict prevents checkout" else s!"{n} conflicts prevent checkout"

/-- Brings the working tree and the index to some files. -/
def showFiles (repository : Repository) (worktree : Worktree) (after : Snapshot) :
    Except String (Repository × Worktree) :=
  match repository.baseline with
  | .error reason => .error reason
  | .ok before =>
    match worktree.change repository.objects before after with
    | .ok worktree =>
      let index := (indexAfter (repository.index.getD []) before after).sorted
      .ok ({ repository with index := some index }, worktree)
    | .error n => .error (conflictText n)

end Repository

end CommitReports.Git
