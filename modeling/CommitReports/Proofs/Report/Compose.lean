import CommitReports.Proofs.Commit.Queries
import CommitReports.Report

/-!
# Reports, step by step

A report is made through a handle that keeps the answers it has got. Starting from
a commit of which nothing is known, each question is asked once, so the report is
the one that the questions give when they are asked one after the other
(`Report.about`), and dispatching it is handing it over to the sink
(`dispatchCommit_eq`).
-/

namespace CommitReports

variable {ρ κ : Type} [History ρ] [Sink κ]

/-- What the patch of a commit starts from: its first parent, or nothing if there is none. -/
def Commit.patchBase (hash : String) : Action ρ (Option String) :=
  tryCatch (History.parent hash) fun e => if e.isNoParent then return none else throw e

/-- The report on a commit of which nothing is known. -/
def Report.about (mail : Correspondence) (commit : Commit) : Action ρ Report := do
  let whatChanged ← History.whatChanged commit.hash
  let base ← Commit.patchBase commit.hash
  let diff ← History.diff base commit.hash
  return { sender := mail.sender, recipient := mail.recipient, branch := commit.branch.name,
           hash := commit.hash, whatChanged, diff }

/-- Says that a message on a commit goes out and delivers it; in a dry run, only says what would. -/
def handOver (dryRun : Bool) (commit : Commit) (message : String) : Action (ρ × κ) Unit := do
  if dryRun then
    Action.print [(none, "  "), (some .yellow, "○"), (none, " "), (some .cyan, commit.line),
      (none, " "), (some .dimmed, "(dry run)")]
    Action.debug s!"skipped {message.utf8ByteSize} byte report for {commit.line}"
  else
    Action.print [(none, "  "), (some .green, "→"), (none, " "), (some .cyan, commit.line)]
    Action.onSecond (Sink.deliver commit.hash message)

namespace Commit.Handle

/-- A handle that does not know the parent asks for it once, and learns it if there is an answer. -/
theorem perform_base_of_unknown (handle : Handle) (hparent : handle.parent = none)
    (site : Site ρ) :
    ∃ handle', handle'.commit = handle.commit ∧
      perform base handle site =
        ((((Commit.patchBase handle.commit.hash).perform site).1, handle'),
          ((Commit.patchBase handle.commit.hash).perform site).2) := by
  rcases hasked : (History.parent handle.commit.hash : Action ρ (Option String)).perform site with
    ⟨answer, after⟩
  refine ⟨{ handle with parent := answer.toOption }, rfl, ?_⟩
  simp only [perform_base, perform_parentHash_of_unknown hparent hasked, Commit.patchBase,
    Action.perform_tryCatch, hasked]
  cases answer with
  | error e => cases he : e.isNoParent <;> simp [he]
  | ok parent => rfl

/-- From a commit of which nothing is known, composing the report asks each question once. -/
theorem perform_compose (mail : Correspondence) (commit : Commit) (site : Site ρ) :
    ∃ handle, handle.commit = commit ∧
      perform (Report.compose mail) { commit } site =
        ((((Report.about mail commit).perform site).1, handle),
          ((Report.about mail commit).perform site).2) := by
  simp only [Report.compose, Report.about, Commit.Handle.whatChanged, Commit.Handle.diff,
    perform_bind, perform_theCommit, perform_get, perform_ask, Action.perform_bind]
  -- After each of the three questions both are at the same site, or have failed alike.
  rcases (History.whatChanged commit.hash : Action ρ _).perform site with ⟨⟨e⟩ | ⟨text⟩, between⟩
  · exact ⟨{ commit }, rfl, rfl⟩
  · obtain ⟨handle, hcommit, hbase⟩ := perform_base_of_unknown
      { commit, summary := some text } rfl between
    simp only [perform_modify, perform_pure, hbase]
    rcases (Commit.patchBase commit.hash : Action ρ _).perform between with ⟨⟨e⟩ | ⟨base⟩, later⟩
    · exact ⟨handle, hcommit, rfl⟩
    · simp only [hcommit]
      rcases (History.diff base commit.hash : Action ρ _).perform later with ⟨⟨e⟩ | ⟨diff⟩, last⟩
      · exact ⟨handle, hcommit, rfl⟩
      · exact ⟨handle, hcommit, rfl⟩

end Commit.Handle

/-- Dispatching a commit of which nothing is known: its report is made, then handed over. -/
theorem dispatchCommit_eq (mail : Correspondence) (dryRun : Bool) (commit : Commit) :
    (dispatchCommit mail dryRun commit : Action (ρ × κ) Unit) = (do
      let report ← Action.onFirst (Report.about mail commit)
      handOver dryRun commit report.render) := by
  funext site
  show ((Commit.Handle.perform (dispatch mail dryRun) { commit } site).1.1,
      (Commit.Handle.perform (dispatch mail dryRun) { commit } site).2) =
    Action.perform (do
      let report ← Action.onFirst (Report.about mail commit)
      handOver dryRun commit report.render) site
  obtain ⟨handle, hcommit, hcompose⟩ :=
    Commit.Handle.perform_compose mail commit { site with resource := site.resource.1 }
  have hfirst : Commit.Handle.perform (Commit.Handle.onFirst (Report.compose mail)) { commit } site =
      ((((Action.onFirst (Report.about mail commit)).perform site).1, handle),
        ((Action.onFirst (Report.about mail commit)).perform site).2) := by
    rw [Action.perform_onFirst, Commit.Handle.perform_onFirst, hcompose]
  simp only [dispatch, Commit.Handle.perform_bind, hfirst, Action.perform_bind]
  rcases (Action.onFirst (Report.about mail commit)).perform site with ⟨⟨e⟩ | ⟨report⟩, between⟩
  · rfl
  · simp only [Commit.Handle.perform_theCommit, hcommit]
    cases dryRun
    · simp only [handOver, Bool.false_eq_true, if_false, Commit.Handle.perform_bind,
        Commit.Handle.perform_ask, Action.perform_bind, Action.print, Action.perform_say]
    · simp only [handOver, if_true, Commit.Handle.perform_bind, Commit.Handle.perform_ask,
        Action.perform_bind, Action.print, Action.debug, Action.perform_say]

end CommitReports
