import CommitReports.Proofs.Run.DryRun
import CommitReports.Proofs.Run.Success

/-!
# Lines that do not depend on each other

What a run makes of a line of the state file follows from the answers of the history and
from this line alone (`Answers.outcome`). So the outcome of a run is put together from
those of its lines, in their order, and the run succeeds if and only if it takes each of
them (`Stage.makes_iff`). To compare runs on different state files, they are made on one
stage: the history, the sink and the rest of the disk are the same.

Then two state files that are put together make what each of them makes, and lines that
change places take what they make with them (`lines_independent`). A file that is
rejected is rejected in any company.
-/

namespace CommitReports

/-! ## Outcomes -/

/-- What a run makes of a state file. -/
structure Outcome where
  /-- The hashes of the commits that are reported on, in order. -/
  commits : List String := []
  /-- The reports, in order. -/
  messages : List String := []
  /-- The lines of the summary. -/
  branches : List BranchSummary := []
  /-- The new text of the state file. -/
  text : String := ""
  deriving DecidableEq, Repr

namespace Outcome

/-- The outcome of progress on some lines. -/
def of (lines : List Progress) : Outcome where
  commits := (lines.flatMap (·.reports)).map (·.hash)
  messages := (lines.flatMap (·.reports)).map (·.render)
  branches := lines.map (·.summary)
  text := Text.unlines (lines.map (·.line))

instance : Append Outcome where
  append first second :=
    { commits := first.commits ++ second.commits
      messages := first.messages ++ second.messages
      branches := first.branches ++ second.branches
      text := first.text ++ second.text }

/-- Outcomes, one after the other. -/
def all (outcomes : List Outcome) : Outcome := outcomes.foldr (· ++ ·) {}

theorem append_def (first second : Outcome) : first ++ second =
    { commits := first.commits ++ second.commits
      messages := first.messages ++ second.messages
      branches := first.branches ++ second.branches
      text := first.text ++ second.text } := rfl

theorem empty_append (outcome : Outcome) : {} ++ outcome = outcome := by
  simp [append_def]

theorem append_empty (outcome : Outcome) : outcome ++ {} = outcome := by
  simp [append_def]

theorem append_assoc (a b c : Outcome) : a ++ b ++ c = a ++ (b ++ c) := by
  simp [append_def, List.append_assoc, String.append_assoc]

theorem all_append (first second : List Outcome) : all (first ++ second) = all first ++ all second := by
  induction first with
  | nil => exact (empty_append _).symm
  | cons outcome rest ih =>
    show outcome ++ all (rest ++ second) = outcome ++ all rest ++ all second
    rw [ih, append_assoc]

theorem of_append (first second : List Progress) : of (first ++ second) = of first ++ of second := by
  simp [of, append_def, Text.unlines_append]

end Outcome

namespace Answers

/-- What a run makes of a line that it takes. -/
def outcome (answers : Answers) (settings : Settings) (line : String) : Outcome :=
  match (Watermarks.Line.read line).mark? with
  | none => {}
  | some m =>
    match answers.taken settings (Watermarks.ofMark m) with
    | .ok p => .of [p]
    | .error _ => {}

/-- A line is taken if it is accepted and the commits that have come to its branch can be reported
on. -/
def Takes (answers : Answers) (settings : Settings) (line : String) : Prop :=
  answers.names.Accepts settings.checkoutBranches line ∧
    ∀ m, (Watermarks.Line.read line).mark? = some m →
      ∃ p, answers.taken settings (Watermarks.ofMark m) = .ok p

variable {answers : Answers} {settings : Settings}

/-- Progress on some lines is what is made of each. -/
theorem of_eq_all {lines : List String} {made : List Progress}
    (h : ((lines.filterMap fun line => (Watermarks.Line.read line).mark?).map
      Watermarks.ofMark).mapM (answers.taken settings) = .ok made) :
    .of made = Outcome.all (lines.map (answers.outcome settings)) := by
  induction lines generalizing made with
  | nil => cases h; rfl
  | cons line rest ih =>
    show _ = answers.outcome settings line ++ Outcome.all (rest.map (answers.outcome settings))
    rw [List.filterMap_cons] at h
    cases hmark : (Watermarks.Line.read line).mark? with
    | none =>
      rw [hmark] at h
      rw [ih h, outcome, hmark, Outcome.empty_append]
    | some m =>
      rw [hmark, List.map_cons, List.mapM_cons] at h
      obtain ⟨p, hp, h⟩ := bind_eq_ok.mp h
      obtain ⟨more, hmore, h⟩ := bind_eq_ok.mp h
      cases h
      rw [outcome, hmark, ← ih hmore]
      simp only [hp]
      exact Outcome.of_append [p] more

/-- All lines are taken if and only if they are accepted and progress is made from their
watermarks. -/
theorem takes_iff {lines : List String} :
    (∀ line ∈ lines, answers.Takes settings line) ↔
      (∀ line ∈ lines, answers.names.Accepts settings.checkoutBranches line) ∧
      ∃ made, ((lines.filterMap fun line => (Watermarks.Line.read line).mark?).map
        Watermarks.ofMark).mapM (answers.taken settings) = .ok made := by
  rw [exists_mapM_eq_ok_iff, List.forall_mem_map]
  constructor
  · intro h
    refine ⟨fun line hline => (h line hline).1, fun m hm => ?_⟩
    obtain ⟨line, hline, hmark⟩ := List.mem_filterMap.mp hm
    exact (h line hline).2 m hmark
  · rintro ⟨haccepted, htaken⟩ line hline
    exact ⟨haccepted line hline, fun m hmark => htaken m (List.mem_filterMap.mpr ⟨line, hline, hmark⟩)⟩

end Answers

/-! ## Runs up to the saving -/

/-- The mailbox takes every report. -/
def Mailbox.Willing (box : Mailbox) : Prop := box.refusal = none

section Willing

variable {ρ : Type} [History ρ] {answers : Answers} {I : ρ → Files → Prop} {settings : Settings}

omit [History ρ] in
/-- What is handed over to a mailbox that takes everything is taken. -/
theorem handOver_settled (commit : Commit) (message : String) :
    (handOver false commit message : Action (ρ × Mailbox) Unit).Settled
      (fun r d => I r.1 d ∧ r.2.Willing) (.ok ()) := by
  rintro site ⟨hsite, hwilling⟩
  have hnone : site.resource.2.refusal = none := hwilling
  simp only [handOver, Bool.false_eq_true, if_false, Action.perform_bind, Action.print,
    Action.perform_say, Action.perform_onSecond, Sink.deliver, Mailbox.deliver,
    Action.perform_resource, hnone, Action.perform_change]
  exact ⟨trivial, hsite, hwilling⟩

/-- A watermark that progress is made from advances by it. -/
theorem Answers.Hold.advance_willing (h : answers.Hold I) {watermark : Commit} {p : Progress}
    (htaken : answers.taken settings watermark = .ok p) :
    (CommitReports.advance settings false watermark : Action (ρ × Mailbox) Advance).Settled
      (fun r d => I r.1 d ∧ r.2.Willing) (.ok p.advance) := by
  obtain ⟨commits, hcommits, hreports⟩ := bind_eq_ok.mp htaken
  obtain ⟨reports, hreports, -⟩ := bind_eq_ok.mp hreports
  have hfound := h.discovered watermark settings.checkoutBranches
  rw [hcommits] at hfound
  have hdispatched : ∀ commit ∈ commits,
      (dispatchCommit settings.correspondence false commit : Action (ρ × Mailbox) Unit).Settled
        (fun r d => I r.1 d ∧ r.2.Willing) (.ok ()) := by
    intro commit hcommit
    obtain ⟨report, hreport⟩ := exists_mapM_eq_ok_iff.mp ⟨reports, hreports⟩ commit hcommit
    have habout := h.about settings.correspondence commit
    rw [hreport] at habout
    rw [dispatchCommit_eq]
    exact (habout.onFirst (L := Mailbox.Willing)).bind_ok (handOver_settled commit _)
  obtain ⟨hdiscovered, -, hbranch, hprevious⟩ := taken_eq_ok htaken
  rw [hcommits] at hdiscovered
  cases hdiscovered
  rw [← Advance.over_eq hbranch hprevious]
  exact (hfound.onFirst (L := Mailbox.Willing)).bind_ok ((Action.Settled.forM_ok hdispatched).bind_ok (.pure _))

/-- Where the watermarks are known and progress is made from each, the run gets as far as saving. -/
theorem Answers.Hold.reach_willing (h : answers.Hold I) {options : RunOptions}
    {read : Except SystemError String} {watermarks : List Commit} {made : List Progress}
    (hread : ∀ r d, I r d → d.readText settings.stateFile = read) (hdry : options.dryRun = false)
    (hprepared : answers.prepared settings options read = .ok watermarks)
    (hmade : watermarks.mapM (answers.taken settings) = .ok made) :
    (reach settings options : Action (ρ × Mailbox) (List Advance)).Settled
      (fun r d => I r.1 d ∧ r.2.Willing) (.ok (made.map Progress.advance)) := by
  have hloaded := h.prepared options hread
  rw [hprepared] at hloaded
  refine (hloaded.onFirst (L := Mailbox.Willing)).bind_ok (.mapM_ok ?_)
  rw [hdry, List.forall₂_map_right_iff]
  exact (mapM_eq_ok_iff.mp hmade).imp fun _ _ => h.advance_willing

/-- A run that cannot prepare delivers nothing. -/
theorem Answers.Hold.run_unprepared {κ : Type} [Sink κ] (h : answers.Hold I) {options : RunOptions}
    {read : Except SystemError String} {e : Failure}
    (hread : ∀ r d, I r d → d.readText settings.stateFile = read)
    (hprepared : answers.prepared settings options read = .error e) (site : Site (ρ × κ))
    (hsite : I site.resource.1 site.files) :
    ∃ after, (CommitReports.run settings options).perform site = (.error e, after) ∧
      after.resource.2 = site.resource.2 := by
  obtain ⟨hresult, -, hsink⟩ := (h.prepared options hread).onFirst (L := (· = site.resource.2)) site
    ⟨hsite, rfl⟩
  rw [hprepared] at hresult
  exact ⟨_, Action.perform_bind_eq_error.mpr (.inl (Prod.ext hresult rfl)), hsink⟩

end Willing

/-! ## Runs on different state files -/

/-- Where runs are made that differ in nothing but the content of the state file: the mailbox takes
every report, and the disk has room and a place for the file. -/
structure Stage (ρ : Type) where
  history : ρ
  box : Mailbox
  disk : Files
  settings : Settings
  place : Place
  willing : box.Willing
  path : disk.writable settings.stateFile = .ok place
  room : disk.refusals.append = none

namespace Stage

variable {ρ : Type}

/-- The stage with a state file of the given content. -/
def site (stage : Stage ρ) (text : String) : Site (ρ × Mailbox) :=
  { resource := (stage.history, stage.box)
    files := stage.disk.store stage.place text.toUTF8 }

theorem readText_site (stage : Stage ρ) (text : String) :
    (stage.site text).files.readText stage.settings.stateFile = .ok text :=
  Files.readText_eq_ok_iff.mpr (Files.read_store stage.path _)

/-- The state file can be replaced, whatever it holds. -/
def Savable (stage : Stage ρ) : Prop :=
  ∀ old new : String, ∃ files,
    (stage.site old).files.replace stage.settings.stateFile new.toUTF8 = (.ok (), files)

theorem savable_of_replace {stage : Stage ρ} {old new : String} {files : Files}
    (h : (stage.site old).files.replace stage.settings.stateFile new.toUTF8 = (.ok (), files)) :
    stage.Savable :=
  fun _ _ => Files.replace_store stage.path stage.room h _

variable [History ρ]

/-- What loading a state file gives. -/
def load (stage : Stage ρ) (text : String) : Except Failure (List Commit) :=
  ((Watermarks.load stage.settings.stateFile stage.settings.checkoutBranches).perform
    { stage.site text with resource := stage.history }).1

/-- A run on a state file succeeds, and makes this of it. -/
def Makes (stage : Stage ρ) (refresh : Bool) (text : String) (outcome : Outcome) : Prop :=
  ∃ after, (run stage.settings { refresh }).perform (stage.site text) =
      (.ok { branches := outcome.branches, persisted := true }, after) ∧
    after.resource.2.commits = stage.box.commits ++ outcome.commits ∧
    after.resource.2.messages = stage.box.messages ++ outcome.messages ∧
    after.files.readText stage.settings.stateFile = .ok outcome.text

/-- A run makes one thing of a state file only. -/
theorem Makes.unique {stage : Stage ρ} {refresh : Bool} {text : String} {outcome outcome' : Outcome}
    (h : stage.Makes refresh text outcome) (h' : stage.Makes refresh text outcome') :
    outcome = outcome' := by
  obtain ⟨after, hrun, hcommits, hmessages, htext⟩ := h
  obtain ⟨after', hrun', hcommits', hmessages', htext'⟩ := h'
  obtain ⟨hsummary, rfl⟩ := Prod.mk.inj (hrun.symm.trans hrun')
  have hbranches := congrArg Summary.branches (Except.ok.inj hsummary)
  have hcommits := List.append_cancel_left (hcommits.symm.trans hcommits')
  have hmessages := List.append_cancel_left (hmessages.symm.trans hmessages')
  have htext := Except.ok.inj (htext.symm.trans htext')
  cases outcome
  cases outcome'
  simp_all

variable {stage : Stage ρ} {answers : Answers} {I : ρ → Prop}
  (h : ∀ files, answers.Hold (ρ := ρ) fun r d => I r ∧ d = files) (hstage : I stage.history)

include h hstage

/-- What a run that succeeds has found: its lines are accepted, and progress is made from each. -/
theorem makes_of_run {refresh : Bool} {text : String} {summary : Summary}
    {after : Site (ρ × Mailbox)}
    (hrun : (run stage.settings { refresh }).perform (stage.site text) = (.ok summary, after)) :
    stage.Savable ∧ (refresh = true → answers.refresh = .ok ()) ∧
      (∀ line ∈ Text.linesOf text, answers.names.Accepts stage.settings.checkoutBranches line) ∧
      ∃ made, ((Watermarks.marksOf text).map Watermarks.ofMark).mapM
          (answers.taken stage.settings) = .ok made ∧
        stage.Makes refresh text (.of made) := by
  obtain ⟨hprepared, haccepted, made, _, hmade, ⟨-, rfl⟩, hreplace, hdone⟩ :=
    (h _).run_taken (fun _ _ hsite => hsite.2 ▸ stage.readText_site text) rfl ⟨hstage, rfl⟩ hrun
  rw [hdone.summary] at hrun
  exact ⟨savable_of_replace hreplace, (Answers.prepared_eq_ok_iff.mp hprepared).1, haccepted, made,
    hmade, after, hrun, hdone.took.commits, hdone.took.messages, hdone.saved⟩

/-- A run succeeds if its lines are accepted and progress is made from each. -/
theorem exists_run {refresh : Bool} {text : String} {made : List Progress}
    (hsavable : stage.Savable) (hrefresh : refresh = true → answers.refresh = .ok ())
    (haccepted : ∀ line ∈ Text.linesOf text,
      answers.names.Accepts stage.settings.checkoutBranches line)
    (hmade : ((Watermarks.marksOf text).map Watermarks.ofMark).mapM
      (answers.taken stage.settings) = .ok made) :
    ∃ summary after,
      (run stage.settings { refresh }).perform (stage.site text) = (.ok summary, after) := by
  have hprepared : answers.prepared stage.settings { refresh } (.ok text) =
      .ok ((Watermarks.marksOf text).map Watermarks.ofMark) :=
    Answers.prepared_eq_ok_iff.mpr ⟨hrefresh, Names.loaded_eq_ok_iff.mpr
      ⟨text, rfl, haccepted, rfl⟩⟩
  obtain ⟨hreached, ⟨-, hfiles⟩, -⟩ := (h _).reach_willing
    (fun _ _ hsite => hsite.2 ▸ stage.readText_site text) rfl hprepared hmade
    (stage.site text) ⟨⟨hstage, rfl⟩, stage.willing⟩
  obtain ⟨files, hreplace⟩ := hsavable text (Text.unlines (made.map (·.line)))
  rw [← hfiles, ← render_advance] at hreplace
  obtain ⟨after, hconclude, -, -⟩ := exists_conclude stage.settings false
    (made.map Progress.advance) ((reach stage.settings { refresh }).perform (stage.site text)).2
    hreplace
  exact ⟨_, after, (perform_run_of_reach hreached).trans hconclude⟩

/-- **A run takes each line for itself**, and makes of them what it makes of each, in order. -/
theorem makes_iff (refresh : Bool) (text : String) (outcome : Outcome) :
    stage.Makes refresh text outcome ↔
      stage.Savable ∧ (refresh = true → answers.refresh = .ok ()) ∧
      (∀ line ∈ Text.linesOf text, answers.Takes stage.settings line) ∧
      outcome = .all ((Text.linesOf text).map (answers.outcome stage.settings)) := by
  rw [Answers.takes_iff]
  constructor
  · intro hmakes
    obtain ⟨_, hrun, -⟩ := id hmakes
    obtain ⟨hsavable, hrefresh, haccepted, made, hmade, hof⟩ := makes_of_run h hstage hrun
    refine ⟨hsavable, hrefresh, ⟨haccepted, made, hmade⟩, ?_⟩
    rw [← Answers.of_eq_all hmade]
    exact hmakes.unique hof
  · rintro ⟨hsavable, hrefresh, ⟨haccepted, made, hmade⟩, rfl⟩
    obtain ⟨_, _, hrun⟩ := exists_run h hstage hsavable hrefresh haccepted hmade
    obtain ⟨-, -, -, made', hmade', hof⟩ := makes_of_run h hstage hrun
    obtain rfl : made = made' := Except.ok.inj (hmade.symm.trans hmade')
    rwa [← Answers.of_eq_all hmade]

theorem load_eq (text : String) :
    stage.load text = answers.names.loaded stage.settings.stateFile stage.settings.checkoutBranches
      (.ok text) := by
  have hloaded := (h _).names.load stage.settings.stateFile stage.settings.checkoutBranches
    { stage.site text with resource := stage.history } ⟨hstage, rfl⟩
  rw [stage.readText_site text] at hloaded
  exact hloaded.1

/-- A file is rejected in any company. -/
theorem load_append {first second : String} (hended : Text.Ended first) {e : Failure}
    (hrejected : stage.load first = .error e ∨ stage.load second = .error e) :
    ∃ e, stage.load (first ++ second) = .error e := by
  rw [load_eq h hstage, load_eq h hstage] at hrejected
  rw [load_eq h hstage]
  cases hloaded : answers.names.loaded stage.settings.stateFile stage.settings.checkoutBranches
    (.ok (first ++ second)) with
  | error e => exact ⟨e, rfl⟩
  | ok watermarks =>
    -- If the whole is accepted, all lines are, and neither part is rejected.
    obtain ⟨_, ⟨⟩, haccepted, -⟩ := Names.loaded_eq_ok_iff.mp hloaded
    rw [Text.linesOf_append hended, List.forall_mem_append] at haccepted
    rcases hrejected with hfirst | hsecond
    · rw [Names.loaded_eq_ok_iff.mpr ⟨first, rfl, haccepted.1, rfl⟩] at hfirst
      cases hfirst
    · rw [Names.loaded_eq_ok_iff.mpr ⟨second, rfl, haccepted.2, rfl⟩] at hsecond
      cases hsecond

end Stage

/-- **The lines of a state file do not depend on each other.** -/
theorem lines_independent (stage : Stage Recorded) (refresh : Bool) :
    (∀ first second e, Text.Ended first →
      stage.load first = .error e ∨ stage.load second = .error e →
      ∃ cause, stage.load (first ++ second) = .error cause ∧
        ∀ options, ∃ failure after,
          (run stage.settings options).perform (stage.site (first ++ second)) =
            (.error failure, after) ∧
          after.resource.2 = stage.box ∧
          (options.refresh = false ∨ stage.history.unreachable = false → failure = cause)) ∧
    (∀ first second outcome outcome', Text.Ended first →
      stage.Makes refresh first outcome → stage.Makes refresh second outcome' →
      stage.Makes refresh (first ++ second) (outcome ++ outcome')) ∧
    ∀ text outcome, stage.Makes refresh text outcome →
      ∃ block : String → Outcome,
        (∀ line ∈ Text.linesOf text, stage.Makes refresh line (block line)) ∧
        ∀ text', (Text.linesOf text').Perm (Text.linesOf text) →
          stage.Makes refresh text' (.all ((Text.linesOf text').map block)) := by
  have h : ∀ files, stage.history.answers.Hold fun r d => stage.history.Alike r ∧ d = files :=
    stage.history.hold
  have hmakes := Stage.makes_iff h (Recorded.Alike.refl stage.history) refresh
  refine ⟨fun first second e hended hrejected => ?_, fun first second outcome outcome' hended => ?_,
    fun text outcome => ?_⟩
  · obtain ⟨cause, hcause⟩ := Stage.load_append h (.refl _) hended hrejected
    refine ⟨cause, hcause, fun options => ?_⟩
    rw [Stage.load_eq h (.refl _)] at hcause
    obtain ⟨failure, hprepared, hsame⟩ : ∃ failure,
        stage.history.answers.prepared stage.settings options (.ok (first ++ second)) =
          .error failure ∧
        (options.refresh = false ∨ stage.history.unreachable = false → failure = cause) := by
      unfold Answers.prepared
      rw [hcause]
      cases options.refresh <;> cases hremote : stage.history.unreachable <;>
        simp [Recorded.answers, hremote, bind, Except.bind]
    obtain ⟨after, hrun, hsink⟩ := (h _).run_unprepared (fun _ _ hsite =>
      hsite.2 ▸ stage.readText_site (first ++ second)) hprepared (stage.site (first ++ second))
      ⟨.refl _, rfl⟩
    exact ⟨failure, after, hrun, hsink, hsame⟩
  · rw [hmakes, hmakes, hmakes, Text.linesOf_append hended, List.forall_mem_append, List.map_append,
      Outcome.all_append]
    rintro ⟨hsavable, hrefresh, hfirst, rfl⟩ ⟨-, -, hsecond, rfl⟩
    exact ⟨hsavable, hrefresh, ⟨hfirst, hsecond⟩, rfl⟩
  · rw [hmakes]
    rintro ⟨hsavable, hrefresh, htakes, rfl⟩
    refine ⟨stage.history.answers.outcome stage.settings, fun line hline => ?_, fun text' hperm => ?_⟩
    · rw [hmakes, Text.linesOf_line hline]
      refine ⟨hsavable, hrefresh, ?_, ?_⟩
      · split
        next => exact List.forall_mem_nil _
        next => simpa using htakes line hline
      · split
        next hempty => rw [hempty]; rfl
        next => exact (Outcome.append_empty _).symm
    · rw [hmakes]
      exact ⟨hsavable, hrefresh, fun line hline => htakes line (hperm.mem_iff.mp hline), rfl⟩

/-- A line with a new commit and one without, apart, together and the other way round; and a line
that is rejected. -/
theorem lines_independent_sample :
    let stage : Stage Recorded :=
      { history := .sample, box := { name := "box" }, disk := Files.empty [], settings := .sample
        place := ["state"], willing := rfl, path := by cbv, room := rfl }
    ∃ first second : Outcome, first.commits = ["c"] ∧ second.commits = [] ∧
      stage.Makes false "m b\n" first ∧ stage.Makes false "m m\n" second ∧
      stage.Makes false "m b\nm m\n" (first ++ second) ∧
      (∃ block : String → Outcome, stage.Makes false "m m\nm b\n" (block "m m" ++ block "m b")) ∧
      ∃ e, stage.load "m b\nx b\n" = .error e := by
  intro stage
  obtain ⟨hrejected, happend, hblocks⟩ := lines_independent stage false
  have hfirst : stage.Makes false "m b\n"
      { commits := ["c"]
        messages := ((run .sample {}).perform (stage.site "m b\n")).2.resource.2.messages
        branches := [{ branch := "m", previous := "b", current := "c", reported := 1 }]
        text := "m c\n" } :=
    ⟨_, Prod.ext (by cbv) rfl, by cbv, rfl, by cbv⟩
  have hsecond : stage.Makes false "m m\n"
      { branches := [{ branch := "m", previous := "m", current := "m", reported := 0 }]
        text := "m m\n" } :=
    ⟨_, Prod.ext (by cbv) rfl, by cbv, by cbv, by cbv⟩
  have hended : Text.Ended "m b\n" := .inr ⟨"m b", by decide⟩
  have hboth := happend "m b\n" "m m\n" _ _ hended hfirst hsecond
  obtain ⟨block, -, hperm⟩ := hblocks _ _ hboth
  have hlines : Text.linesOf "m m\nm b\n" = ["m m", "m b"] := by cbv
  have hlines' : Text.linesOf "m b\nm m\n" = ["m b", "m m"] := by cbv
  have hswapped := hperm "m m\nm b\n" (by rw [hlines]; exact hlines' ▸ .swap _ _ _)
  rw [hlines] at hswapped
  obtain ⟨cause, hcause, -⟩ := hrejected "m b\n" "x b\n" (.unresolvable "x") hended (.inr (by cbv))
  refine ⟨_, _, rfl, rfl, hfirst, hsecond, hboth, ⟨block, ?_⟩, cause, hcause⟩
  rwa [Outcome.all, List.map_cons, List.map_singleton, List.foldr_cons, List.foldr_cons, List.foldr_nil,
    Outcome.append_empty] at hswapped

end CommitReports
