import CommitReports.Proofs.History.Answers
import CommitReports.Proofs.Recorded.WellKept
import CommitReports.Proofs.Run.Questions
import CommitReports.Proofs.Watermarks.Loading

/-!
# Runs that succeed

The answers of the history determine what a successful run does, provided that
they stay the same while it lasts. Loading gives the marks of the state file
(`Answers.Hold.prepared`), reporting on a line makes the progress that follows from
the answers and delivers exactly its reports (`Answers.Hold.advance`), and saving
leaves a state file that reads as it was written. Together: the lines of the state
file are taken in order (`Answers.Hold.run_taken`), and the messages, the new state
file and the summary are those of their progress (`run_ok`).
-/

namespace CommitReports

variable {ρ : Type} [History ρ] {answers : Answers} {I : ρ → Files → Prop}

/-! ## Reporting -/

/-- A mailbox has taken some reports since it was as given. -/
structure Mailbox.Took (start : Mailbox) (reports : List Report) (box : Mailbox) : Prop where
  commits : box.commits = start.commits ++ reports.map (·.hash)
  messages : box.messages = start.messages ++ reports.map (·.render)

/-- Some reports were delivered since the mailbox was as given, and the history has kept its
property. -/
def Reported (I : ρ → Files → Prop) (start : Mailbox) (reports : List Report) (r : ρ × Mailbox)
    (d : Files) : Prop :=
  I r.1 d ∧ start.Took reports r.2

theorem Mailbox.deliver_ok {commit message : String} {site after : Site Mailbox}
    (h : (Mailbox.deliver commit message).perform site = (.ok (), after)) :
    after.files = site.files ∧ after.resource.commits = site.resource.commits ++ [commit] ∧
      after.resource.messages = site.resource.messages ++ [message] := by
  simp only [deliver, Action.perform_bind, Action.perform_resource] at h
  split at h <;> cases h <;> exact ⟨rfl, rfl, rfl⟩

theorem Mailbox.deliver_keeps {P : Files → Prop} (commit message : String) :
    (Sink.deliver commit message : Action Mailbox Unit).Keeps fun _ d => P d := by
  intro site hsite
  simp only [Sink.deliver, Mailbox.deliver, Action.perform_bind, Action.perform_resource]
  split <;> exact hsite

variable {start : Mailbox} {reports : List Report}

omit [History ρ] in
/-- An action on the history delivers nothing. -/
theorem reported_onFirst {α : Type} {act : Action ρ α} {P : α → Prop}
    (h : act.Yields I fun a r d => P a ∧ I r d) :
    (Action.onFirst act : Action (ρ × Mailbox) α).Yields (Reported I start reports) fun a r d =>
      P a ∧ Reported I start reports r d := by
  refine h.onFirst.mono ?_
  rintro a r d ⟨⟨ha, hkeeps⟩, htook⟩
  exact ⟨ha, hkeeps, htook⟩

omit [History ρ] in
/-- What is handed over is delivered. -/
theorem handOver_reported {commit : Commit} {report : Report} (hhash : report.hash = commit.hash) :
    (handOver false commit report.render : Action (ρ × Mailbox) Unit).Yields
      (Reported I start reports) fun _ => Reported I start (reports ++ [report]) := by
  rintro site a after ⟨hkeeps, htook⟩ hp
  obtain ⟨_, printed, hprint, hdeliver⟩ := Action.perform_bind_eq_ok.mp hp
  cases hprint
  obtain ⟨hresult, rfl⟩ := Prod.mk.inj hdeliver
  obtain ⟨hfiles, hcommits, hmessages⟩ := Mailbox.deliver_ok (Prod.ext hresult rfl)
  refine ⟨?_, ?_, ?_⟩
  · show I site.resource.1 ((Mailbox.deliver commit.hash report.render).perform _).2.files
    rw [hfiles]
    exact hkeeps
  · refine hcommits.trans ?_
    show site.resource.2.commits ++ _ = _
    rw [htook.commits, List.map_append, List.append_assoc, ← hhash]
    rfl
  · refine hmessages.trans ?_
    show site.resource.2.messages ++ _ = _
    rw [htook.messages, List.map_append, List.append_assoc]
    rfl

namespace Answers

/-- The report that is dispatched is the one that follows from the answers. -/
theorem Hold.dispatch (h : answers.Hold I) (mail : Correspondence) (commit : Commit)
    (reports : List Report) :
    (dispatchCommit mail false commit : Action (ρ × Mailbox) Unit).Yields (Reported I start reports)
      fun _ r d => ∃ report, answers.report mail commit.branch.name commit.hash = .ok report ∧
        Reported I start (reports ++ [report]) r d := by
  rw [dispatchCommit_eq]
  have hmade := (h.about mail commit).yields
  refine (reported_onFirst hmade).bind fun report => .of_fact fun hreport => ?_
  exact (handOver_reported (report_eq_ok hreport).2).mono fun _ r d h => ⟨report, hreport, h⟩

/-- The commits of a line are reported in order. -/
theorem Hold.dispatchAll (h : answers.Hold I) (mail : Correspondence) :
    ∀ (commits : List Commit) (reports : List Report),
      (commits.forM (dispatchCommit mail false) : Action (ρ × Mailbox) Unit).Yields
        (Reported I start reports) fun _ r d => ∃ new,
          commits.mapM (fun c => answers.report mail c.branch.name c.hash) = .ok new ∧
          Reported I start (reports ++ new) r d := by
  intro commits
  rw [List.forM_eq_forM]
  -- The reports so far vary in the induction: each commit adds its own.
  induction commits with
  | nil => exact fun reports => .pure fun r d h => ⟨[], rfl, by rwa [List.append_nil]⟩
  | cons commit rest ih =>
    intro reports
    rw [List.forM_cons]
    refine (h.dispatch mail commit reports).bind fun _ => ?_
    rintro site a after ⟨report, hreport, hsite⟩ hp
    obtain ⟨new, hnew, hafter⟩ := ih (reports ++ [report]) site a after hsite hp
    refine ⟨report :: new, ?_, by simpa using hafter⟩
    rw [List.mapM_cons, hreport, hnew]
    rfl

end Answers

/-- The advance of a watermark that has made some progress. -/
def Progress.advance (p : Progress) : Advance :=
  { current := { hash := p.current, branch := ⟨⟨p.branch⟩⟩ }, summary := p.summary }

/-- The advance of a watermark over the commits that were reported is that of its progress. -/
theorem Advance.over_eq {watermark : Commit} {p : Progress}
    (hbranch : p.branch = watermark.branch.name) (hprevious : p.previous = watermark.hash) :
    Advance.over watermark (p.reports.map fun r => { hash := r.hash, branch := watermark.branch }) =
      p.advance := by
  unfold Advance.over Progress.advance Progress.summary Progress.current
  rw [List.getLast?_map, List.length_map, hbranch, hprevious]
  cases p.reports.getLast? <;> rfl

namespace Answers

/-- What is made of a watermark follows from the answers, and its reports are what is delivered. -/
theorem Hold.advance (h : answers.Hold I) (settings : Settings) (watermark : Commit)
    (reports : List Report) :
    (CommitReports.advance settings false watermark : Action (ρ × Mailbox) Advance).Yields
      (Reported I start reports) fun result r d => ∃ p,
        answers.taken settings watermark = .ok p ∧
        result = p.advance ∧ Reported I start (reports ++ p.reports) r d := by
  have hfound := h.discovered watermark settings.checkoutBranches
  refine (reported_onFirst hfound.yields).bind fun commits => .of_fact fun hcommits => ?_
  refine (h.dispatchAll settings.correspondence _ reports).bind fun _ => ?_
  rintro site result after ⟨new, hnew, hsite⟩ hp
  cases hp
  have htaken : answers.taken settings watermark =
      .ok { branch := watermark.branch.name, previous := watermark.hash, reports := new } :=
    bind_eq_ok.mpr ⟨commits, hcommits, bind_eq_ok.mpr ⟨new, hnew, rfl⟩⟩
  have hreported := (taken_eq_ok htaken).1
  rw [hcommits] at hreported
  cases hreported
  exact ⟨_, htaken, Advance.over_eq rfl rfl, hsite⟩

/-- The lines are taken in order. -/
theorem Hold.advanceAll (h : answers.Hold I) (settings : Settings) :
    ∀ (watermarks : List Commit) (reports : List Report),
      (watermarks.mapM (CommitReports.advance settings false) :
          Action (ρ × Mailbox) (List Advance)).Yields (Reported I start reports)
        fun advances r d => ∃ lines : List Progress,
          watermarks.mapM (answers.taken settings) = .ok lines ∧
          advances = lines.map Progress.advance ∧
          Reported I start (reports ++ lines.flatMap (·.reports)) r d := by
  intro watermarks
  induction watermarks with
  | nil => exact fun reports => .pure fun r d h => ⟨[], rfl, rfl, by simpa using h⟩
  | cons watermark rest ih =>
    intro reports
    rw [List.mapM_cons]
    refine (h.advance settings watermark reports).bind fun first => ?_
    rintro site advances after ⟨p, hp, hfirst, hsite⟩ hrun
    obtain ⟨more, between, hmore, hpure⟩ := Action.perform_bind_eq_ok.mp hrun
    cases hpure
    obtain ⟨lines, hlines, hmoreEq, hafter⟩ := ih (reports ++ p.reports) site more _ hsite hmore
    refine ⟨p :: lines, ?_, by rw [hfirst, hmoreEq, List.map_cons], by simpa using hafter⟩
    rw [List.mapM_cons]
    exact bind_eq_ok.mpr ⟨p, hp, bind_eq_ok.mpr ⟨lines, hlines, rfl⟩⟩

end Answers

/-! ## The whole run -/

/-- What is there after a run that has made the given progress on the lines of the state file. -/
structure Accomplished (settings : Settings) (start : Mailbox) (lines : List Progress)
    (summary : Summary) (box : Mailbox) (files : Files) : Prop where
  took : start.Took (lines.flatMap (·.reports)) box
  saved : files.readText settings.stateFile = .ok (Text.unlines (lines.map (·.line)))
  summary : summary = { branches := lines.map (·.summary), persisted := true }

/-- The lines that progress has been made on are what is saved. -/
theorem render_advance (lines : List Progress) :
    Watermarks.render ((lines.map Progress.advance).map (·.current)) =
      Text.unlines (lines.map (·.line)) := by
  rw [Watermarks.render, List.map_map, List.map_map]
  rfl

/-- The run takes the lines of a state file that is accepted, and saves what it has come to. -/
theorem Answers.Hold.run_taken (h : answers.Hold I) {settings : Settings} {options : RunOptions}
    {text : String} (htext : ∀ r d, I r d → d.readText settings.stateFile = .ok text)
    (hdry : options.dryRun = false) {site after : Site (ρ × Mailbox)} {summary : Summary}
    (hsite : I site.resource.1 site.files)
    (hrun : (run settings options).perform site = (.ok summary, after)) :
    answers.prepared settings options (.ok text) =
        .ok ((Watermarks.marksOf text).map Watermarks.ofMark) ∧
      (∀ line ∈ Text.linesOf text, answers.names.Accepts settings.checkoutBranches line) ∧
      ∃ lines d, ((Watermarks.marksOf text).map Watermarks.ofMark).mapM (answers.taken settings) =
          .ok lines ∧ I after.resource.1 d ∧
        d.replace settings.stateFile (Text.unlines (lines.map (·.line))).toUTF8 =
          (.ok (), after.files) ∧
        Accomplished settings site.resource.2 lines summary after.resource.2 after.files := by
  obtain ⟨watermarks, loaded, hload, hrest⟩ := Action.perform_bind_eq_ok.mp hrun
  obtain ⟨advances, reported, hadvances, hconclude⟩ := Action.perform_bind_eq_ok.mp hrest
  have hstart : site.resource.2.Took [] site.resource.2 := ⟨by simp, by simp⟩
  obtain ⟨hprepared, hloaded⟩ := reported_onFirst (h.prepared options htext).yields site watermarks
    loaded ⟨hsite, hstart⟩ hload
  obtain ⟨_, ⟨⟩, haccepted, rfl⟩ :=
    Names.loaded_eq_ok_iff.mp (Answers.prepared_eq_ok_iff.mp hprepared).2
  rw [hdry] at hadvances hconclude
  obtain ⟨lines, hlines, rfl, hreported, htaken⟩ :=
    h.advanceAll settings _ [] loaded advances reported hloaded hadvances
  obtain ⟨_, saved, hsave, hpure⟩ := Action.perform_bind_eq_ok.mp hconclude
  cases hpure
  obtain ⟨hreplace, hresource⟩ := Watermarks.replace_of_save hsave
  rw [render_advance] at hreplace
  obtain ⟨_, hpath⟩ := Files.exists_writable_of_readText (htext _ _ hreported)
  have hsaved := Files.readText_replace hpath hreplace
  refine ⟨hprepared, haccepted, lines, reported.files, hlines, by rwa [hresource], hreplace, ?_⟩
  refine ⟨by rwa [hresource], hsaved, ?_⟩
  rw [List.map_map]
  rfl

/-- The run comes to the progress that follows from the answers. -/
theorem Answers.Hold.run (h : answers.Hold I) {settings : Settings} {options : RunOptions}
    {text : String} (htext : ∀ r d, I r d → d.readText settings.stateFile = .ok text)
    (hdry : options.dryRun = false) {site after : Site (ρ × Mailbox)} {summary : Summary}
    (hsite : I site.resource.1 site.files)
    (hrun : (run settings options).perform site = (.ok summary, after)) :
    (∀ line ∈ Text.linesOf text, Watermarks.Line.read line ≠ .malformed) ∧
    (∃ d, I after.resource.1 d) ∧ ∃ lines,
      (Watermarks.marksOf text).mapM
        (fun m => answers.progress settings.correspondence m.1 m.2) = .ok lines ∧
      Accomplished settings site.resource.2 lines summary after.resource.2 after.files := by
  obtain ⟨-, haccepted, lines, d, hlines, hafter, -, haccomplished⟩ :=
    h.run_taken htext hdry hsite hrun
  refine ⟨fun line hline => (haccepted line hline).ne_malformed, ⟨d, hafter⟩, lines, ?_,
    haccomplished⟩
  rw [List.mapM_map] at hlines
  exact Answers.mapM_eq_ok_of_imp (fun _ _ hp => (Answers.taken_eq_ok hp).2.1) hlines

/-- **What a successful run does.** The history's answers and the state file determine it. -/
theorem run_ok (h : answers.Hold I) {settings : Settings} {options : RunOptions}
    {text : String} (htext : ∀ r d, I r d → d.readText settings.stateFile = .ok text)
    (hdry : options.dryRun = false) {site after : Site (ρ × Mailbox)} {summary : Summary}
    (hsite : I site.resource.1 site.files)
    (hrun : (run settings options).perform site = (.ok summary, after)) :
    (∀ line ∈ Text.linesOf text, Watermarks.Line.read line ≠ .malformed) ∧
    ∃ lines : List Progress,
      (Watermarks.marksOf text).mapM
        (fun m => answers.progress settings.correspondence m.1 m.2) = .ok lines ∧
      after.resource.2.commits = site.resource.2.commits ++
        (lines.flatMap (·.reports)).map (·.hash) ∧
      after.resource.2.messages = site.resource.2.messages ++
        (lines.flatMap (·.reports)).map (·.render) ∧
      after.files.readText settings.stateFile =
        .ok (Text.unlines (lines.map fun p => p.branch ++ " " ++ p.current)) ∧
      summary = {
        branches := lines.map fun p =>
          { branch := p.branch, previous := p.previous, current := p.current,
            reported := p.reports.length }
        persisted := true } := by
  obtain ⟨hwell, -, lines, hlines, haccomplished⟩ := h.run htext hdry hsite hrun
  exact ⟨hwell, lines, hlines, haccomplished.took.commits, haccomplished.took.messages,
    haccomplished.saved, haccomplished.summary⟩

/-- A run over the small history reports on its two new commits. -/
theorem run_ok_sample :
    let site : Site (Recorded × Mailbox) :=
      { resource := (.sample, { name := "box" }), files := .sample }
    ∃ summary after lines, (run .sample {}).perform site = (.ok summary, after) ∧
      (Watermarks.marksOf "m a\n").mapM
        (fun m => Recorded.sample.answers.progress { sender := "from", recipient := "to" } m.1 m.2) =
          .ok lines ∧
      after.resource.2.messages = (lines.flatMap (·.reports)).map (·.render) ∧
      after.files.readText "/state" = .ok (Text.unlines (lines.map fun p => p.branch ++ " " ++ p.current)) ∧
      summary.branches.map (·.reported) = lines.map (·.reports.length) := by
  intro site
  have hrun : (run .sample {}).perform site =
      (.ok { branches := [{ branch := "m", previous := "a", current := "c", reported := 2 }]
             persisted := true }, ((run .sample {}).perform site).2) := Prod.ext (by cbv) rfl
  have htext : ∀ r d, Recorded.sample.Unchanged .sample r d →
      d.readText Settings.sample.stateFile = .ok "m a\n" := by
    rintro _ _ ⟨-, rfl⟩
    exact Files.readText_sample
  obtain ⟨-, lines, hlines, -, hmessages, hsaved, hsummary⟩ :=
    run_ok (Recorded.hold .sample .sample) htext rfl ⟨.refl _, rfl⟩ hrun
  refine ⟨_, _, lines, hrun, hlines, hmessages, hsaved, ?_⟩
  rw [hsummary, List.map_map]
  rfl

end CommitReports
