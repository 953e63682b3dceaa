import CommitReports.Git.Workspace

/-!
# Making commits and tags

A draft says what a commit is to hold: the files as changes to those of its first
parent, who made it, and its message. `Repository.record` writes the commit with
all that it leads to and gives its id; the text is written as the draft has it,
whether it can be read back or not. `Workspace.create` makes an empty repository
and `Workspace.reset` brings its working tree to what `HEAD` leads to.
-/

namespace CommitReports.Git

/-! ## Drafts -/

/-- What is done to the file at a path. -/
inductive FileChange where
  /-- A file with the given content is put there. -/
  | put (mode : FileMode) (content : ByteArray)
  /-- A commit of another repository is put there. -/
  | submodule (commit : ObjectId)
  | delete

/-- What a commit is to hold. -/
structure CommitDraft where
  parents : List ObjectId
  /-- Whether the files of the first parent are left out. -/
  fresh : Bool := false
  changes : List (String × FileChange) := []
  author : ByteArray
  committer : ByteArray
  /-- Further lines of the header, each with its line feed. -/
  headers : ByteArray := .empty
  message : ByteArray

/-- The text of a commit that has a tree. -/
def CommitDraft.text (draft : CommitDraft) (tree : ObjectId) : ByteArray :=
  s!"tree {tree.hex}\n".toUTF8 ++
    (String.join (draft.parents.map fun parent => s!"parent {parent.hex}\n")).toUTF8 ++
    "author ".toUTF8 ++ draft.author ++ "\ncommitter ".toUTF8 ++ draft.committer ++ "\n".toUTF8 ++
    draft.headers ++ "\n".toUTF8 ++ draft.message

/-- What a tag is to hold. -/
structure TagDraft where
  target : ObjectId
  /-- The name of the target's kind. -/
  kind : String := "commit"
  name : String
  tagger : String
  message : ByteArray

/-- The text of a tag. -/
def TagDraft.text (draft : TagDraft) : ByteArray :=
  (s!"object {draft.target.hex}\ntype {draft.kind}\ntag {draft.name}\n" ++
    s!"tagger {draft.tagger}\n\n").toUTF8 ++ draft.message

namespace Snapshot

/-! ## Recording -/

/-- The files after a change, and the store with the content that the change brings. -/
def apply (snapshot : Snapshot) (store : ObjectStore) (path : String) :
    FileChange → Snapshot × ObjectStore
  | .put mode content =>
    let (id, store) := store.insert (.blob content)
    (snapshot.put path ⟨mode, id⟩, store)
  | .submodule commit => (snapshot.put path ⟨.submodule, commit⟩, store)
  | .delete => (snapshot.erase path, store)

/-- The files after some changes, and the store with the content that they bring. -/
def applyAll (snapshot : Snapshot) (store : ObjectStore) (changes : List (String × FileChange)) :
    Snapshot × ObjectStore :=
  changes.foldl (fun (snapshot, store) (path, change) => snapshot.apply store path change)
    (snapshot, store)

end Snapshot

namespace Repository

/-- Adds an object and gives its id. -/
def insert (repository : Repository) (object : Object) : ObjectId × Repository :=
  let (id, objects) := repository.objects.insert object
  (id, { repository with objects })

/-- The files that a commit starts from. -/
def startOf (repository : Repository) (draft : CommitDraft) : Snapshot :=
  if draft.fresh then []
  else ((draft.parents.head?.bind repository.snapshot?).getD [])

/-- Writes a commit and all that it leads to. -/
def record (repository : Repository) (draft : CommitDraft) : ObjectId × Repository :=
  let (snapshot, objects) :=
    (repository.startOf draft).applyAll repository.objects draft.changes
  let (tree, objects) := snapshot.write objects
  { repository with objects }.insert (.commit (draft.text tree))

/-- Writes a tag and the reference of its name. -/
def recordTag (repository : Repository) (draft : TagDraft) : ObjectId × Repository :=
  let (id, repository) := repository.insert (.tag draft.text)
  (id, repository.setRef ("refs/tags/" ++ draft.name) (.object id))

end Repository

namespace Workspace

/-! ## Setting up -/

/-- Makes an empty repository at a place, unless there is one. -/
def create (root : Place) : Action Workspace Unit := do
  if ((← Action.resource).repository? root).isNone then
    let place := root ++ [Files.repositoryName]
    Action.setFiles ((Worktree.provideAbove (← Action.files) place).put place .directory)
    Action.change fun workspace => workspace.setRepository root {}

/-- Makes the working tree of a repository show what `HEAD` leads to, and nothing else. -/
def reset (root : Place) : Action Workspace Unit := do
  let workspace ← Action.resource
  let repository := (workspace.repository? root).getD {}
  let snapshot ← orUnavailable repository.headSnapshot
  let worktree : Worktree := { files := ← Action.files, root }
  Action.setFiles (worktree.reset repository.objects snapshot).files
  Action.change fun workspace =>
    workspace.setRepository root { repository with index := some snapshot.sorted }

end Workspace

end CommitReports.Git
