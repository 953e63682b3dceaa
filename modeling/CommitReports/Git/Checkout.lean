import CommitReports.Git.Workspace

/-!
# Checking out branches

Only a local branch is checked out. The files of its commit are brought into the
working tree first; if that is refused, `HEAD` stays where it is.
-/

namespace CommitReports.Git.Workspace

/-- Shows a local branch in the working tree and makes `HEAD` stand for it. -/
def checkout (branch : String) : Action Workspace Unit := do
  Action.debug s!"git checkout {branch}"
  let repository ← present
  match repository.branchRef? branch with
  | none => throw (.unresolvable branch)
  | some ref =>
    let commit ← orUnavailable (repository.peelRef ref .commit)
    showCommit commit
    setPresent { ← present with head := .reference ref }

end CommitReports.Git.Workspace
