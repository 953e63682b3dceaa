import CommitReports.Git.Workspace

/-!
# Moving branches forward

After a fetch, each local branch that is strictly behind the reference that it
follows is moved to it. A branch that is ahead or level stays, and so does one
that has commits of its own beside those that it lacks. The branch that `HEAD`
leads to is moved only after the working tree was brought to its new commit.
-/

namespace CommitReports.Git

/-- How a branch stands to the commit of the reference that it follows. -/
inductive Standing where
  | level
  | behind
  | ahead
  | diverged
  deriving DecidableEq, Repr

namespace Repository

/-- How one commit stands to another. -/
def standing (repository : Repository) (own other : ObjectId) : Except ObjectFault Standing :=
  if own = other then .ok .level
  else match repository.isDescendant other own with
    | .error fault => .error fault
    | .ok true => .ok .behind
    | .ok false =>
      match repository.isDescendant own other with
      | .error fault => .error fault
      | .ok true => .ok .ahead
      | .ok false => .ok .diverged

/-- The commits of a branch and of the reference that it follows, if both stand for one. -/
def pair? (repository : Repository) (branch : String) : Option (ObjectId × ObjectId) :=
  match repository.ref? branch, repository.followed? branch with
  | some (.object own), some other => some (own, other)
  | _, _ => none

end Repository

namespace Workspace

/-- Moves one branch forward, if it is behind. -/
def fastForwardBranch (head : Option String) (branch : String) : Action Workspace Unit := do
  let repository ← present
  match repository.pair? branch with
  | none => pure ()
  | some (own, other) =>
    match repository.standing own other with
    | .error fault => throw (.unavailable fault.message)
    | .ok .level => pure ()
    | .ok .ahead => pure ()
    | .ok .diverged =>
      Action.warn s!"{branch} has diverged from its upstream; not fast-forwarding"
    | .ok .behind =>
      Action.debug s!"fast-forward {branch} {own.hex}..{other.hex}"
      -- The working tree first: if it refuses, the branch stays where it is.
      if head = some branch then showCommit other
      setPresent ((← present).setRef branch (.object other))

/-- Moves all local branches forward that are behind, in the order of their names. -/
def fastForward : Action Workspace Unit := do
  let repository ← present
  repository.branchRefs.forM (fastForwardBranch repository.headRef?)

end Workspace

end CommitReports.Git
