import CommitReports.Action
import CommitReports.Git.Address
import CommitReports.Git.Fetch
import CommitReports.Git.WorkingTree

/-!
# Workspaces

The repositories on the disk, each at the directory of its working tree, and the
one of them that is worked with. `Workspace.discover` finds the repository that a
path lies in. Actions on a workspace see the present repository as their own
(`present`) and its working tree among the files.
-/

namespace CommitReports.Git

/-- The repositories on the disk, and which one is worked with. -/
structure Workspace where
  repositories : List (Place × Repository) := []
  /-- The working tree of the repository that is worked with. -/
  root : Place := []
  /-- The remote that is fetched from. -/
  remote : String := "origin"

namespace Workspace

/-- The repository whose working tree is at a place. -/
def repository? (workspace : Workspace) (root : Place) : Option Repository :=
  workspace.repositories.lookup root

/-- Puts a repository at the place of its working tree. -/
def setRepository (workspace : Workspace) (root : Place) (repository : Repository) : Workspace :=
  { workspace with
    repositories := (root, repository) ::
      workspace.repositories.filter fun entry => entry.1 != root }

/-- The working trees that a place may lie in, the innermost first. -/
def rootsAbove (place : Place) : List Place :=
  (List.range (place.length + 1)).map fun n => place.take (place.length - n)

/-- The working tree that a path lies in. -/
def discover (workspace : Workspace) (files : Files) (path : String) : Except String Place :=
  let found : Except String Place := match files.walk true path with
    | .error .nulInName =>
      .error "data contained a nul byte that could not be represented as a string"
    | .error e => .error (s!"failed to resolve path \x27{path}\x27: " ++ e.reason)
    | .ok (.vacant _) =>
      .error (s!"failed to resolve path \x27{path}\x27: " ++ SystemError.notFound.reason)
    | .ok (.entry place _) =>
      match (rootsAbove place).find? fun root => (workspace.repository? root).isSome with
      | some root => .ok root
      | none => .error s!"could not find repository at \x27{path}\x27"
  match found with
  | .ok root => .ok root
  | .error reason => .error (s!"Failed to find git repository at {path}: " ++ reason)

/-- The repository that a directory holds, or is, without a search. -/
def repositoryIn (workspace : Workspace) (place : Place) (path : String) :
    Except String Repository :=
  let root := if place.getLast? = some Files.repositoryName then place.dropLast else place
  match workspace.repository? root with
  | some repository => .ok repository
  | none => .error s!"could not find repository at \x27{path}\x27"

/-- The repository at the directory that a remote's address names, or why there is none. -/
def repositoryAt (workspace : Workspace) (files : Files) (url : String) :
    Except String Repository :=
  match Address.ofText url with
  | .invalid url => .error s!"\x27{url}\x27 is not a valid local file URI"
  | .path path =>
    match files.directoryAt path with
    | .error _ => .error "unsupported URL protocol"
    | .ok place => workspace.repositoryIn place path
  | .file path =>
    match files.directoryAt path with
    | .error e => .error (s!"failed to resolve path \x27{path}\x27: " ++ e.reason)
    | .ok place => workspace.repositoryIn place path

/-- Works with the repository that a path lies in. -/
def openAt (path remote : String) : Action Workspace Unit := do
  let workspace ← Action.resource
  match workspace.discover (← Action.files) path with
  | .ok root => Action.change fun workspace => { workspace with root, remote }
  | .error reason => throw (.unavailable reason)

/-- The repository that is worked with. -/
def present : Action Workspace Repository := do
  let workspace ← Action.resource
  return (workspace.repository? workspace.root).getD {}

/-- Puts the repository that is worked with in the place of what it was. -/
def setPresent (repository : Repository) : Action Workspace Unit :=
  Action.change fun workspace => workspace.setRepository workspace.root repository

/-- A value, or the failure of a history that gives a reason. -/
def orUnavailable {α : Type} (result : Except String α) : Action Workspace α :=
  match result with
  | .ok a => pure a
  | .error reason => throw (.unavailable reason)

/-- The commit that a name leads to. -/
def commitNamed (name : String) : Action Workspace ObjectId := do
  match (← present).commitNamed? name with
  | some id => return id
  | none => throw (.unresolvable name)

/-- Brings index and working tree to the files of a commit. -/
def showCommit (commit : ObjectId) : Action Workspace Unit := do
  let repository ← present
  let worktree : Worktree := { files := ← Action.files, root := (← Action.resource).root }
  let after := (repository.snapshot? commit).getD []
  let (repository, worktree) ← orUnavailable (repository.showFiles worktree after)
  setPresent repository
  Action.setFiles worktree.files

end Workspace

end CommitReports.Git
