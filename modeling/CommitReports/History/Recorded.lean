import CommitReports.Graph
import CommitReports.History.Basic

/-!
# Recorded histories

A recorded history holds commits in the order in which they were recorded, each
with its parents, and branches that point at commits. It answers from what is
recorded, and counts what it is asked. The commits that can be reached from one
are found by `visit`, which ends on every record, cycles and missing parents
included: each step either marks a recorded hash for the first time or takes one
hash off the list.
-/

namespace CommitReports

/-- A history whose commits and branches are written down. -/
structure Recorded where
  /-- The hashes in the order in which they were recorded. -/
  order : List String := []
  /-- The parents of each hash, the latest record first. -/
  parents : Graph String := []
  /-- The tip of each branch, the latest record first. -/
  branches : List (String × String) := []
  /-- The branches that were shown in the working tree, in order. -/
  checkouts : List String := []
  /-- How often a commit was asked what it changed. -/
  whatChangedCount : Nat := 0
  /-- How often a patch was asked for. -/
  diffCount : Nat := 0
  /-- How often new commits were fetched, or the attempt was made. -/
  refreshCount : Nat := 0
  /-- Whether the remote cannot be reached. -/
  unreachable : Bool := false
  deriving DecidableEq, Repr

namespace Recorded

/-- Records a commit, newer than all others. -/
def commit (h : Recorded) (hash : String) (parents : List String) : Recorded :=
  { h with order := h.order ++ [hash], parents := (hash, parents) :: h.parents }

/-- Points a branch at a commit. -/
def branch (h : Recorded) (name tip : String) : Recorded :=
  { h with branches := (name, tip) :: h.branches }

/-- The hash that a name stands for: a branch's tip, or a recorded hash. -/
def lookup? (h : Recorded) (name : String) : Option String :=
  match h.branches.lookup name with
  | some tip => some tip
  | none => if (h.parents.lookup name).isSome then some name else none

/-- The recorded hashes that can be reached from one and not from another, newest first. -/
def between (h : Recorded) (since upto : String) : List String :=
  let hidden := h.parents.ancestors since
  let reachable := h.parents.ancestors upto
  h.order.reverse.filter fun hash => reachable.contains hash && !hidden.contains hash

/-- The hash that a name stands for; fails if there is none. -/
def find (name : String) : Action Recorded String := do
  match (← Action.resource).lookup? name with
  | some hash => return hash
  | none => throw (.unresolvable name)

instance : History Recorded where
  resolve := find
  commitsBetween since upto := do
    let since ← find since
    let upto ← find upto
    return (← Action.resource).between since upto
  parent name := do
    let hash ← find name
    return ((← Action.resource).parents.parentsOf hash).head?
  whatChanged name := do
    Action.change fun h => { h with whatChangedCount := h.whatChangedCount + 1 }
    let hash ← find name
    return s!"commit {hash}\n:000000 100644 A\tfile-{hash}"
  diff base name := do
    Action.change fun h => { h with diffCount := h.diffCount + 1 }
    let hash ← find name
    match base with
    | some base =>
      let baseHash ← find base
      return s!"diff {baseHash}..{hash}"
    | none => return s!"diff empty..{hash}"
  hasLocalBranch name := return ((← Action.resource).branches.lookup name).isSome
  checkout name := do
    if ((← Action.resource).branches.lookup name).isNone then throw (.unresolvable name)
    Action.change fun h => { h with checkouts := h.checkouts ++ [name] }
  refresh := do
    Action.change fun h => { h with refreshCount := h.refreshCount + 1 }
    if (← Action.resource).unreachable then throw (.unavailable "remote unreachable")

end Recorded

end CommitReports
