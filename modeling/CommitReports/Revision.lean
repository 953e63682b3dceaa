import CommitReports.History.Basic

/-!
# Revisions and branches

A revision is a name that stands for a commit; a branch is a revision that
moves. Both are made either by asking the history whether the name resolves, or
on trust, when the history itself has just given the name.
-/

namespace CommitReports

/-- A name for a point in the history. -/
structure Revision where
  name : String
  deriving DecidableEq, Repr

/-- A branch, by the name that it is tracked under. -/
structure Branch where
  revision : Revision
  deriving DecidableEq, Repr

/-- The branch's name. -/
def Branch.name (branch : Branch) : String := branch.revision.name

variable {ρ : Type} [History ρ]

/-- Fails unless the revision resolves. -/
def Revision.verify (revision : Revision) : Action ρ Unit := do
  let _ ← History.resolve revision.name

/-- The revision of a name that resolves. -/
def Revision.lookup (name : String) : Action ρ Revision := do
  Revision.verify ⟨name⟩
  return ⟨name⟩

/-- The branch of a name that resolves. -/
def Branch.lookup (name : String) : Action ρ Branch := do
  return ⟨← Revision.lookup name⟩

/-- The branch of a name that resolves and is that of a local branch. -/
def Branch.lookupLocal (name : String) : Action ρ Branch := do
  let branch ← Branch.lookup name
  let isLocal : Bool ← History.hasLocalBranch name
  if isLocal then return branch
  else throw (.unresolvable (name ++ " (not a local branch)"))

end CommitReports
