import CommitReports.Git.CommitText
import CommitReports.Graph

/-!
# Stores of objects

A store holds objects under their ids. Nothing is ever taken out, and an id
keeps the object that it was stored with. The commits of a store form a graph;
a commit that cannot be read has no parents in it, and `faultsFrom` says which
commits of those that a history leads to are missing or unreadable.
-/

namespace CommitReports.Git

/-! ## Objects under ids -/

/-- Objects under their ids. -/
structure ObjectStore where
  objects : List (ObjectId × Object) := []

/-- Why an object cannot be used as a commit. -/
inductive ObjectFault where
  | missing (id : ObjectId)
  | notCommit
  | unreadable (fault : CommitFault)
  deriving DecidableEq, Repr

/-- The wording of a fault. -/
def ObjectFault.message : ObjectFault → String
  | .missing id => s!"object not found - no match for id ({id.hex})"
  | .notCommit => "object is no commit object"
  | .unreadable fault => fault.message

namespace ObjectStore

/-- The object under an id. -/
def find? (store : ObjectStore) (id : ObjectId) : Option Object := store.objects.lookup id

/-- Whether an object stands under an id. -/
def contains (store : ObjectStore) (id : ObjectId) : Bool := (store.find? id).isSome

/-- Adds an object under its id, unless one stands there. -/
def put (store : ObjectStore) (id : ObjectId) (object : Object) : ObjectStore :=
  if store.contains id then store else { objects := (id, object) :: store.objects }

/-- Adds an object and gives its id. -/
def insert (store : ObjectStore) (object : Object) : ObjectId × ObjectStore :=
  (object.id, store.put object.id object)

/-- What is put is found, unless another object stood there. -/
theorem find?_put_self (store : ObjectStore) {id : ObjectId} (object : Object)
    (hnew : store.contains id = false) : (store.put id object).find? id = some object := by
  simp [put, hnew, find?]

/-- Putting an object changes nothing under another id. -/
theorem find?_put_of_ne (store : ObjectStore) {id other : ObjectId} (object : Object)
    (h : other ≠ id) : (store.put id object).find? other = store.find? other := by
  have hne : (other == id) = false := by simpa using h
  by_cases hc : store.contains id = true
  · simp [put, hc]
  · simp [put, hc, find?, List.lookup_cons, hne]

/-- What is in a store stays there. -/
theorem find?_put_of_find? (store : ObjectStore) {id other : ObjectId} (object : Object)
    {held : Object} (h : store.find? other = some held) :
    (store.put id object).find? other = some held := by
  by_cases heq : other = id
  · subst heq
    have hc : store.contains other = true := by simp [contains, h]
    simp [put, hc, h]
  · rw [find?_put_of_ne store object heq, h]

/-! ## Objects of one kind -/

/-- The content of a file. -/
def blob? (store : ObjectStore) (id : ObjectId) : Option ByteArray :=
  match store.find? id with
  | some (.blob content) => some content
  | _ => none

/-- The entries of a tree. -/
def tree? (store : ObjectStore) (id : ObjectId) : Option (List TreeEntry) :=
  match store.find? id with
  | some (.tree entries) => some entries
  | _ => none

/-- What a commit says, or why it cannot be read. -/
def commit (store : ObjectStore) (id : ObjectId) : Except ObjectFault CommitInfo :=
  match store.find? id with
  | none => .error (.missing id)
  | some (.commit text) =>
    match CommitInfo.read text with
    | .ok info => .ok info
    | .error fault => .error (.unreadable fault)
  | some _ => .error .notCommit

/-- What a commit says, if it can be read. -/
def commit? (store : ObjectStore) (id : ObjectId) : Option CommitInfo := (store.commit id).toOption

/-- What a tag says, if it can be read. -/
def tag? (store : ObjectStore) (id : ObjectId) : Option TagInfo :=
  match store.find? id with
  | some (.tag text) => TagInfo.read? text
  | _ => none

/-- The kind of an object that can be read. -/
def kind? (store : ObjectStore) (id : ObjectId) : Option ObjectKind :=
  match store.find? id with
  | none => none
  | some (.blob _) => some .blob
  | some (.tree _) => some .tree
  | some (.commit _) => (store.commit? id).map fun _ => .commit
  | some (.tag _) => (store.tag? id).map fun _ => .tag

/-! ## The graph of commits -/

/-- The ids of all objects. -/
def ids (store : ObjectStore) : List ObjectId := (store.objects.map (·.1)).eraseDups

/-- The commits with their parents. -/
def graph (store : ObjectStore) : Graph ObjectId :=
  store.ids.filterMap fun id => (store.commit? id).map fun info => (id, info.parents)

/-- The faults of the commits that a history leads to, first found first. -/
def faultsFrom (store : ObjectStore) (id : ObjectId) : List ObjectFault :=
  (store.graph.ancestors id).reverse.filterMap fun id =>
    match store.commit id with
    | .ok _ => none
    | .error fault => some fault

/-- The time that a commit was made at; 0 for one that cannot be read. -/
def time (store : ObjectStore) (id : ObjectId) : Int :=
  match store.commit? id with
  | some info => info.committer.seconds
  | none => 0

/-! ## From one object to another -/

/-- Follows tags, and from a commit to its tree, until an object of a kind is reached. -/
def peel (store : ObjectStore) (target : ObjectKind) : (fuel : Nat) → ObjectId → Option ObjectId
  | 0, _ => none
  | fuel + 1, id =>
    match store.kind? id with
    | none => none
    | some kind =>
      if kind = target then some id
      else match kind with
        | .tag => (store.tag? id).bind fun tag =>
          if store.kind? tag.target = some tag.kind then store.peel target fuel tag.target else none
        | .commit => (store.commit? id).bind fun info => store.peel target fuel info.tree
        | .blob => none
        | .tree => none

/-- The object of a kind that an object leads to. -/
def peelTo (store : ObjectStore) (target : ObjectKind) (id : ObjectId) : Option ObjectId :=
  store.peel target (store.objects.length + 1) id

end ObjectStore

end CommitReports.Git
