import CommitReports.Proofs.Recorded.WellKept
import CommitReports.Proofs.Run.Questions
import CommitReports.Proofs.Run.Success

/-!
# Chronicles

A chronicle is what is there at some time in a long sequence of runs: the history,
the disk, and the reports that were settled, that is, delivered by runs that
succeeded and were no dry ones. It goes on by *occurrences*: a commit is recorded,
a branch is pointed at a commit, or a run is made, under circumstances that may
make it fail at any of its deliveries and at any step of the saving.

`Chronicle.Leads` is the reachability of one chronicle from another by allowed
occurrences, with a well kept history at all times. As far as the state file is
concerned, an occurrence does one of two things (`take_unsaved`, `take_saved`):
either the marks of the file and the settled reports stay as they are, or a run
takes the lines of the file to their progress and settles its reports.
-/

namespace CommitReports

/-- What may differ from run to run. -/
structure Circumstances where
  options : RunOptions := {}
  checkoutBranches : Bool := false
  /-- Whether the remote cannot be reached. -/
  unreachable : Bool := false
  /-- How many reports are taken before all are refused, and why they are. -/
  refusal : Option (Nat × String) := none
  /-- What the disk refuses. -/
  disk : Refusals := {}

/-- What happens. -/
inductive Occurrence where
  | record (hash : String) (parents : List String)
  | point (branch tip : String)
  | run (circumstances : Circumstances)

/-- What is there at some time. -/
structure Chronicle where
  history : Recorded
  files : Files
  /-- The commits and messages that successful runs have delivered, dry runs apart, in order. -/
  settled : List (String × String) := []

namespace Chronicle

variable {settings : Settings} {s : Chronicle} {c : Circumstances}

/-- The site of a run. Its mailbox is empty. -/
def site (settings : Settings) (s : Chronicle) (c : Circumstances) : Site (Recorded × Mailbox) :=
  { resource := ({ s.history with unreachable := c.unreachable },
      { name := settings.transportCommand, refusal := c.refusal })
    files := { s.files with refusals := c.disk } }

/-- A run under some circumstances. -/
def attempt (settings : Settings) (s : Chronicle) (c : Circumstances) :
    Except Failure Summary × Site (Recorded × Mailbox) :=
  (CommitReports.run { settings with checkoutBranches := c.checkoutBranches } c.options).perform
    (s.site settings c)

/-- What is there after an occurrence. -/
def take (settings : Settings) (s : Chronicle) : Occurrence → Chronicle
  | .record hash parents => { s with history := s.history.commit hash parents }
  | .point branch tip => { s with history := s.history.branch branch tip }
  | .run c =>
    let (result, after) := s.attempt settings c
    let box := after.resource.2
    { history := after.resource.1
      files := after.files
      settled := s.settled ++
        if result.isOk && !c.options.dryRun then box.commits.zip box.messages else [] }

/-- One chronicle leads to another by allowed occurrences, with a well kept history at all times. -/
def Leads (settings : Settings) (allowed : Chronicle → Occurrence → Prop) :
    Chronicle → Chronicle → Prop :=
  Relation.ReflTransGen fun s s' =>
    ∃ o, allowed s o ∧ s' = s.take settings o ∧ s'.history.WellKept

/-- The state file can be read, and its lines name branches and recorded hashes. -/
structure Tracks (settings : Settings) (s : Chronicle) (marks : List (String × String)) : Prop where
  kept : s.history.WellKept
  read : ∃ text, s.files.readText settings.stateFile = .ok text ∧ Watermarks.marksOf text = marks
  recorded : ∀ m ∈ marks, m.2 ∈ s.history.order

/-! ## Runs -/

/-- A run that fails or is a dry one leaves the records, the disk and the settled reports as they
are. -/
theorem take_unsaved (hunsaved : c.options.dryRun = true ∨ ∃ e, (s.attempt settings c).1 = .error e) :
    s.history.SameRecords (s.take settings (.run c)).history ∧
      (s.take settings (.run c)).files = { s.files with refusals := c.disk } ∧
      (s.take settings (.run c)).settled = s.settled := by
  let start : Recorded := { s.history with unreachable := c.unreachable }
  let disk : Files := { s.files with refusals := c.disk }
  have hdeliver := fun r => Mailbox.deliver_keeps (P := start.Unchanged disk r)
  have hafter := run_keeps (J := fun r d => start.Unchanged disk r.1 d)
    (fun _ => (start.hold disk).keeps) hdeliver (rfl : _ = s.attempt settings c) hunsaved
    ⟨.refl start, rfl⟩
  have hnothing : ((s.attempt settings c).1.isOk && !c.options.dryRun) = false := by
    rcases hunsaved with hdry | ⟨e, he⟩
    · rw [hdry, Bool.not_true, Bool.and_false]
    · rw [he]
      rfl
  refine ⟨⟨hafter.1.order, hafter.1.parents, hafter.1.branches⟩, hafter.2, ?_⟩
  simp [take, hnothing]

/-- A run saves its watermarks, or it fails or is a dry one. -/
theorem saved_or_unsaved (settings : Settings) (s : Chronicle) (c : Circumstances) :
    (c.options.dryRun = false ∧ ∃ summary, (s.attempt settings c).1 = .ok summary) ∨
      (c.options.dryRun = true ∨ ∃ e, (s.attempt settings c).1 = .error e) := by
  cases hdry : c.options.dryRun with
  | true => exact .inr (.inl rfl)
  | false =>
    cases hresult : (s.attempt settings c).1 with
    | error e => exact .inr (.inr ⟨e, rfl⟩)
    | ok summary => exact .inl ⟨rfl, summary, rfl⟩

/-- What is saved of the progress on a state file is read back: its branches were fields there, and
recorded hashes are. -/
theorem marksOf_progress {h : Recorded} {mail : Correspondence} (hkept : h.WellKept) {text : String}
    (hrecorded : ∀ m ∈ Watermarks.marksOf text, m.2 ∈ h.order) {lines : List Progress}
    (hlines : List.Forall₂ (h.ProgressOn mail) (Watermarks.marksOf text) lines) :
    Watermarks.marksOf (Text.unlines (lines.map (·.line))) =
      lines.map fun p => (p.branch, p.current) := by
  let watermarks := lines.map fun p => p.advance.current
  have hfields : ∀ w ∈ watermarks, Text.IsField w.branch.name ∧ Text.IsField w.hash := by
    intro w hw
    obtain ⟨p, hp, rfl⟩ := List.mem_map.mp hw
    refine ⟨?_, hkept.field _ (Recorded.ProgressOn.forall_current_mem hkept hlines hrecorded p hp)⟩
    obtain ⟨m, hm, hprogress⟩ := Recorded.ProgressOn.exists_mark hlines p hp
    show Text.IsField p.branch
    rw [hprogress.branch]
    exact (Watermarks.mem_marksOf hm).1
  have hread := Watermarks.marksOf_render hfields
  rw [Watermarks.render, List.map_map, List.map_map] at hread
  exact hread

/-- A run that succeeds and is no dry one takes each line of the state file to its progress, settles
the reports, and leaves the records as they are. -/
theorem take_saved {marks : List (String × String)} (htracks : s.Tracks settings marks)
    {summary : Summary} (hok : (s.attempt settings c).1 = .ok summary)
    (hdry : c.options.dryRun = false) :
    ∃ lines, List.Forall₂ (s.history.ProgressOn settings.correspondence) marks lines ∧
      s.history.SameRecords (s.take settings (.run c)).history ∧
      (s.take settings (.run c)).settled =
        s.settled ++ (lines.flatMap (·.reports)).map (fun r => (r.hash, r.render)) ∧
      (s.take settings (.run c)).Tracks settings (lines.map fun p => (p.branch, p.current)) := by
  obtain ⟨hkept, ⟨text, hread, rfl⟩, hrecorded⟩ := htracks
  -- The run starts from the same records; only the remote and the disk's moods are its own.
  let start : Recorded := { s.history with unreachable := c.unreachable }
  let disk : Files := { s.files with refusals := c.disk }
  let settings' : Settings := { settings with checkoutBranches := c.checkoutBranches }
  have hrun : (CommitReports.run settings' c.options).perform (s.site settings c) =
      (.ok summary, (s.attempt settings c).2) := Prod.ext hok rfl
  have htext : ∀ r d, start.Unchanged disk r d → d.readText settings'.stateFile = .ok text := by
    rintro _ _ ⟨-, rfl⟩
    rw [Files.readText_refusals]
    exact hread
  obtain ⟨-, ⟨_, hafter, -⟩, lines, hlines, haccomplished⟩ :=
    (start.hold disk).run htext hdry ⟨.refl start, rfl⟩ hrun
  have hsame : s.history.SameRecords (s.take settings (.run c)).history :=
    ⟨hafter.order, hafter.parents, hafter.branches⟩
  have hstart : s.history.SameRecords start := ⟨rfl, rfl, rfl⟩
  have hprogress : List.Forall₂ (s.history.ProgressOn settings.correspondence)
      (Watermarks.marksOf text) lines := (hstart.wellKept hkept).mapM_progressOn hrecorded hlines
  have hsettled : (s.take settings (.run c)).settled =
      s.settled ++ (lines.flatMap (·.reports)).map (fun r => (r.hash, r.render)) := by
    have hdelivers : ((s.attempt settings c).1.isOk && !c.options.dryRun) = true := by
      rw [hok, hdry]
      rfl
    have hcommits : (s.attempt settings c).2.resource.2.commits =
        (lines.flatMap (·.reports)).map (·.hash) := haccomplished.took.commits
    have hmessages : (s.attempt settings c).2.resource.2.messages =
        (lines.flatMap (·.reports)).map (·.render) := haccomplished.took.messages
    simp only [take, hdelivers, if_true, hcommits, hmessages, List.zip_map']
  refine ⟨lines, hprogress, hsame, hsettled, hsame.wellKept hkept,
    ⟨_, haccomplished.saved, marksOf_progress hkept hrecorded hprogress⟩, ?_⟩
  intro m' hm'
  obtain ⟨p, hp, rfl⟩ := List.mem_map.mp hm'
  rw [hsame.order]
  exact Recorded.ProgressOn.forall_current_mem hkept hprogress hrecorded p hp

/-! ## All occurrences -/

/-- A state file that reads as before is tracked as before. -/
theorem Tracks.of_extends {marks : List (String × String)} (htracks : s.Tracks settings marks)
    {s' : Chronicle} (hkept : s'.history.WellKept) (hextends : s.history.Extends s'.history)
    (hread : s'.files.readText settings.stateFile = s.files.readText settings.stateFile) :
    s'.Tracks settings marks where
  kept := hkept
  read := by
    rw [hread]
    exact htracks.read
  recorded m hm := hextends.recorded m.2 (htracks.recorded m hm)

/-- **What an occurrence does**: marks and settled reports stay, or a run takes the lines to their
progress and settles its reports. -/
theorem take_cases {marks : List (String × String)} (htracks : s.Tracks settings marks)
    (o : Occurrence) (hkept : (s.take settings o).history.WellKept) :
    s.history.Extends (s.take settings o).history ∧
      ((s.take settings o).Tracks settings marks ∧ (s.take settings o).settled = s.settled ∨
        ∃ lines, List.Forall₂ (s.history.ProgressOn settings.correspondence) marks lines ∧
          s.history.SameRecords (s.take settings o).history ∧
          (s.take settings o).settled =
            s.settled ++ (lines.flatMap (·.reports)).map (fun r => (r.hash, r.render)) ∧
          (s.take settings o).Tracks settings (lines.map fun p => (p.branch, p.current))) := by
  cases o with
  | record hash parents =>
    have hextends : s.history.Extends (s.history.commit hash parents) := .commit htracks.kept hkept
    exact ⟨hextends, .inl ⟨htracks.of_extends hkept hextends rfl, rfl⟩⟩
  | point branch tip =>
    have hextends : s.history.Extends (s.history.branch branch tip) := .of_eq rfl rfl
    exact ⟨hextends, .inl ⟨htracks.of_extends hkept hextends rfl, rfl⟩⟩
  | run c =>
    rcases saved_or_unsaved settings s c with ⟨hdry, summary, hok⟩ | hunsaved
    · obtain ⟨lines, hlines, hsame, hsettled, htracks'⟩ := take_saved htracks hok hdry
      exact ⟨.of_eq hsame.order hsame.parents, .inr ⟨lines, hlines, hsame, hsettled, htracks'⟩⟩
    · obtain ⟨hsame, hfiles, hsettled⟩ := take_unsaved hunsaved
      have hextends : s.history.Extends (s.take settings (.run c)).history :=
        .of_eq hsame.order hsame.parents
      refine ⟨hextends, .inl ⟨htracks.of_extends hkept hextends ?_, hsettled⟩⟩
      rw [hfiles, Files.readText_refusals]

/-- A run changes no records. -/
theorem sameRecords_run {marks : List (String × String)} (htracks : s.Tracks settings marks)
    (c : Circumstances) : s.history.SameRecords (s.take settings (.run c)).history := by
  rcases saved_or_unsaved settings s c with ⟨hdry, summary, hok⟩ | hunsaved
  · obtain ⟨_, -, hsame, -, -⟩ := take_saved htracks hok hdry
    exact hsame
  · exact (take_unsaved hunsaved).1

/-! ## A small chronicle -/

/-- The small history, with nothing settled yet. -/
def sample : Chronicle := { history := .sample, files := .sample }

theorem tracks_sample : sample.Tracks .sample [("m", "a")] where
  kept := Recorded.wellKept_sample
  read := ⟨"m a\n", Files.readText_sample, by decide⟩
  recorded := by decide

/-- A run may be made at any time. -/
theorem leads_run {marks : List (String × String)} {allowed : Chronicle → Occurrence → Prop}
    (htracks : s.Tracks settings marks) (hallowed : allowed s (.run c)) :
    Leads settings allowed s (s.take settings (.run c)) :=
  .single ⟨.run c, hallowed, rfl, (sameRecords_run htracks c).wellKept htracks.kept⟩

end Chronicle

end CommitReports
