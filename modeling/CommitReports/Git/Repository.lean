import CommitReports.Git.Configuration
import CommitReports.Git.RefName
import CommitReports.Git.Snapshot

/-!
# Repositories

A repository holds objects, references to them, a configuration and the index of
its working tree. A reference stands for an object, or for another reference;
`HEAD` is a reference of its own, which says what the working tree shows.
-/

namespace CommitReports.Git

/-! ## References -/

/-- What a reference stands for. -/
inductive RefTarget where
  | object (id : ObjectId)
  | reference (name : String)
  deriving DecidableEq, Repr

/-- A repository. -/
structure Repository where
  objects : ObjectStore := {}
  head : RefTarget := .reference "refs/heads/main"
  /-- The references other than `HEAD`. -/
  refs : List (String × RefTarget) := []
  configuration : Configuration := {}
  /-- The files that the working tree was last brought to; none before it was brought to any. -/
  index : Option Snapshot := none

namespace Repository

/-- What the reference of a name stands for. -/
def ref? (repository : Repository) (name : String) : Option RefTarget :=
  if name = "HEAD" then some repository.head else repository.refs.lookup name

/-- Makes the reference of a name stand for something else. -/
def setRef (repository : Repository) (name : String) (target : RefTarget) : Repository :=
  if name = "HEAD" then { repository with head := target }
  else { repository with
    refs := (name, target) :: repository.refs.filter fun entry => entry.1 != name }

/-- Removes the reference of a name. -/
def deleteRef (repository : Repository) (name : String) : Repository :=
  { repository with refs := repository.refs.filter fun entry => entry.1 != name }

/-- A reference stands for what it was set to. -/
theorem ref?_setRef_self (repository : Repository) (name : String) (target : RefTarget) :
    (repository.setRef name target).ref? name = some target := by
  by_cases h : name = "HEAD" <;> simp [setRef, ref?, h]

private theorem lookup_filter_ne_name {name other : String} (h : other ≠ name) :
    ∀ refs : List (String × RefTarget),
      (refs.filter fun entry => entry.1 != name).lookup other = refs.lookup other := by
  intro refs
  induction refs with
  | nil => rfl
  | cons x xs ih =>
    obtain ⟨k, t⟩ := x
    by_cases hk : k = name
    · subst hk
      have hne : (other == k) = false := by simpa using h
      rw [List.filter_cons_of_neg (by simp), List.lookup_cons, hne]
      exact ih
    · rw [List.filter_cons_of_pos (by simpa using hk), List.lookup_cons, List.lookup_cons, ih]

/-- Setting a reference changes no other one. -/
theorem ref?_setRef_of_ne (repository : Repository) {name other : String} (target : RefTarget)
    (h : other ≠ name) : (repository.setRef name target).ref? other = repository.ref? other := by
  by_cases hn : name = "HEAD"
  · subst hn
    simp [setRef, ref?, h]
  · by_cases ho : other = "HEAD"
    · simp [setRef, ref?, hn, ho]
    · have hne : (other == name) = false := by simpa using h
      simp [setRef, ref?, hn, ho, List.lookup_cons, hne, lookup_filter_ne_name h]

/-! ### What setting a reference leaves as it is -/

section

variable (repository : Repository) (name : String) (target : RefTarget)

@[simp] theorem objects_setRef :
    (repository.setRef name target).objects = repository.objects := by
  unfold setRef
  split <;> rfl

@[simp] theorem configuration_setRef :
    (repository.setRef name target).configuration = repository.configuration := by
  unfold setRef
  split <;> rfl

@[simp] theorem index_setRef : (repository.setRef name target).index = repository.index := by
  unfold setRef
  split <;> rfl

theorem head_setRef {name : String} (h : name ≠ "HEAD") :
    (repository.setRef name target).head = repository.head := by
  rw [setRef, if_neg h]

end

/-! ## Following references -/

/-- How many references one may lead through to another. -/
def maxLevels : Nat := 5

/-- The reference that stands for an object to which a reference leads, and the object. -/
def follow? (repository : Repository) : (levels : Nat) → String → Option (String × ObjectId)
  | levels, name =>
    match repository.ref? name with
    | none => none
    | some (.object id) => some (name, id)
    | some (.reference next) =>
      match levels with
      | 0 => none
      | levels + 1 => follow? repository levels next

/-- The name at which a reference leads no further. -/
def lastName (repository : Repository) : (levels : Nat) → String → String
  | levels, name =>
    match repository.ref? name, levels with
    | some (.reference next), levels + 1 => lastName repository levels next
    | _, _ => name

/-- The object that a reference stands for in the end. -/
def target? (repository : Repository) (name : String) : Option ObjectId :=
  (repository.follow? maxLevels name).map (·.2)

/-- The reference that `HEAD` leads to: the branch that is shown, or `HEAD` itself. -/
def headRef? (repository : Repository) : Option String :=
  (repository.follow? maxLevels "HEAD").map (·.1)

/-- The names of the local branches as references, in order. -/
def branchRefs (repository : Repository) : List String :=
  ((repository.refs.map (·.1)).filter RefName.isBranch).mergeSort fun a b => decide (a ≤ b)

/-- The local branch of a name, as a reference. -/
def branchRef? (repository : Repository) (name : String) : Option String :=
  (RefName.ofBranch? name).bind fun ref =>
    if (repository.ref? ref).isSome then some ref else none

/-- The files of a commit's tree. -/
def snapshot? (repository : Repository) (commit : ObjectId) : Option Snapshot := do
  let tree ← repository.objects.peelTo .tree commit
  Snapshot.ofTree repository.objects tree

end Repository

end CommitReports.Git
