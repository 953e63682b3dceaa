import CommitReports.Git.Store
import CommitReports.Path

/-!
# Snapshots

The files of a tree, with those of the trees in it, as one list of full paths.
Two files of a snapshot never stand in each other's way: putting one at a path
removes what was there, above it and below it. `Snapshot.ofTree` reads a snapshot
from a store and `Snapshot.write` writes the trees of one.
-/

namespace CommitReports.Git

/-- What a tree says of a file. -/
structure TreeFile where
  mode : FileMode
  id : ObjectId
  deriving DecidableEq, Repr

/-- Files by their full paths. -/
abbrev Snapshot := List (String × TreeFile)

namespace Snapshot

/-- The names that a path is made of. -/
def names (path : String) : List String := (Path.segments path.toList).map String.ofList

/-- The path that is made of some names. -/
def joined (names : List String) : String := "/".intercalate names

/-- Whether a path leads through another one. -/
def isBelow (path other : String) : Bool := (other ++ "/").toList.isPrefixOf path.toList

/-- Whether two files cannot both be there. -/
def inTheWay (path other : String) : Bool :=
  path == other || isBelow path other || isBelow other path

/-- The file at a path. -/
def find? (snapshot : Snapshot) (path : String) : Option TreeFile := snapshot.lookup path

/-- Removes the file at a path. -/
def erase (snapshot : Snapshot) (path : String) : Snapshot :=
  snapshot.filter fun entry => entry.1 != path

/-- Puts a file at a path, in the place of all that is in its way. -/
def put (snapshot : Snapshot) (path : String) (file : TreeFile) : Snapshot :=
  (path, file) :: snapshot.filter fun entry => !inTheWay entry.1 path

/-- The files in the order of their paths. -/
def sorted (snapshot : Snapshot) : Snapshot :=
  snapshot.mergeSort fun a b => decide (a.1 ≤ b.1)

/-- The files of a tree and of the trees in it, each path after the given names. -/
def flatten (store : ObjectStore) : (fuel : Nat) → List String → ObjectId → Option Snapshot
  | 0, _, _ => none
  | fuel + 1, above, id => do
    let entries ← store.tree? id
    let parts ← entries.mapM fun entry =>
      if entry.mode = .directory then flatten store fuel (above ++ [entry.name]) entry.id
      else some [(joined (above ++ [entry.name]), ⟨entry.mode, entry.id⟩)]
    return parts.flatten

/-- The files of a tree, in the order of their paths. -/
def ofTree (store : ObjectStore) (id : ObjectId) : Option Snapshot :=
  (flatten store (store.objects.length + 1) [] id).map sorted

/-- The files that stand directly in a tree. -/
def filesHere (files : List (List String × TreeFile)) : List TreeEntry :=
  files.filterMap fun (names, file) =>
    match names with
    | [name] => some { name, mode := file.mode, id := file.id }
    | _ => none

/-- The names of the trees that stand in a tree. -/
def treesHere (files : List (List String × TreeFile)) : List String :=
  (files.filterMap fun (names, _) =>
    match names with
    | name :: _ :: _ => some name
    | _ => none).eraseDups

/-- The files in a tree that stands in a tree. -/
def inTree (files : List (List String × TreeFile)) (tree : String) :
    List (List String × TreeFile) :=
  files.filterMap fun (names, file) =>
    match names with
    | name :: inner :: rest => if name = tree then some (inner :: rest, file) else none
    | _ => none

/-- Writes the tree of some files, and the trees in it, into a store. -/
def writeTree (store : ObjectStore) : (fuel : Nat) → List (List String × TreeFile) →
    ObjectId × ObjectStore
  | 0, _ => store.insert (.tree [])
  | fuel + 1, files =>
    let (trees, store) := (treesHere files).foldl (fun (trees, store) name =>
      let (id, store) := writeTree store fuel (inTree files name)
      (trees ++ [{ name, mode := .directory, id : TreeEntry }], store)) (([] : List TreeEntry), store)
    store.insert (Object.ofEntries (filesHere files ++ trees))

/-- Writes the trees of a snapshot into a store. -/
def write (snapshot : Snapshot) (store : ObjectStore) : ObjectId × ObjectStore :=
  let files := snapshot.map fun (path, file) => (names path, file)
  writeTree store ((files.map fun file => file.1.length).foldl max 0 + 1) files

end Snapshot

end CommitReports.Git
