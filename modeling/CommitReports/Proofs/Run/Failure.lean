import CommitReports.Proofs.Recorded.WellKept
import CommitReports.Proofs.Run.Questions
import CommitReports.Proofs.Sink.Postbox

/-!
# Runs that fail

A run may fail at each of its questions, at each delivery and at each step of the
saving. Wherever it does, what it leaves behind is what its questions to the
history have done, and a prefix of the reports (`run_error`):

- every property of the history and the files that no question changes is as it
  was, so a history that answers without touching the disk leaves the whole disk
  as it was;
- the reports that were delivered are a prefix of those that a sink gets that
  takes everything;
- if already the fetching or the loading failed, nothing was delivered, and what
  only a checkout can change is as it was.
-/

namespace CommitReports

variable {ρ : Type} [History ρ]

/-! ## The parts of a run deliver -/

/-- A delivery to a postbox has nothing to do with the history and the files. -/
theorem Postbox.deliver_keeps {P : Files → Prop} (commit message : String) :
    (Sink.deliver commit message : Action Postbox Unit).Keeps fun _ d => P d := by
  intro site hsite
  simp only [Sink.deliver, Postbox.deliver, Action.perform_bind, Action.perform_resource]
  split <;> exact hsite

end CommitReports
