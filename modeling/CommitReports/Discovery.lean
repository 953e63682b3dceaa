import CommitReports.Commit

/-!
# Discovery of new commits

A watermark is the last commit of a branch that was reported. `discover` finds
the commits that have come to the branch since, oldest first, ready to be
reported in that order.
-/

namespace CommitReports

variable {ρ : Type} [History ρ]

/-- The commits on the watermark's branch that are not reported yet, oldest first. With `checkout`
the branch is shown in the working tree first. -/
def discover (watermark : Commit) (checkout : Bool) : Action ρ (List Commit) := do
  let branch := watermark.branch
  if checkout then History.checkout branch.name
  let newest ← watermark.newCommitsSince branch
  let commits := newest.reverse
  Action.debug s!"{branch.name}: {commits.length} new commit(s) since {watermark.hash}"
  return commits

end CommitReports
