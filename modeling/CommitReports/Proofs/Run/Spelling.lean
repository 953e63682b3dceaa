import CommitReports.Proofs.Git.Discovery
import CommitReports.Proofs.Run.Independent
import CommitReports.Proofs.Watermarks.RoundTrip

/-!
# Spellings of a watermark

A line of a state file may spell its watermark in more than one way: by the full hash, by
the first digits of it, by the hash of a tag. Two runs are compared here on one stage,
with state files that name the same branches and commits (`Stage.Respells`).

The spelling is verified, hidden in the walk, told in the summary and saved again. It only
shows where it is told or saved: the two runs go on side by side up to the saving
(`Stage.Respells.reach`), each at a site that is the twin of the other's, and advance each
watermark over the same commits (`advance_parallels`). So they deliver the same and end
alike (`run_respelled`).

If branches are checked out, this takes a state file that is not tracked. One that is
looks like a file that was changed in all spellings but one, and the branch that has it is
not left then (`not_run_respelled_tracked`).
-/

namespace CommitReports

open CommitReports.Git

/-! ## What is compared -/

/-- Two marks name one branch, and hashes that stand for one commit wherever `HEAD` is moved. -/
structure SameMark (repository : Repository) (movable : Bool) (m m' : String × String) : Prop where
  branch : m'.1 = m.1
  commit : ∃ id, repository.Stands movable m.2 id ∧ repository.Stands movable m'.2 id

theorem SameMark.symm {repository : Repository} {movable : Bool} {m m' : String × String}
    (h : SameMark repository movable m m') : SameMark repository movable m' m := by
  obtain ⟨hbranch, id, hstands, hstands'⟩ := h
  exact ⟨hbranch.symm, id, hstands', hstands⟩

/-- Two summaries of a line tell of the same reports. With new commits they end at the same full
hash, and without at their own spelling of the watermark. -/
structure BranchSummary.Respelled (objects : ObjectStore) (first second : BranchSummary) : Prop where
  branch : second.branch = first.branch
  reported : second.reported = first.reported
  moved : first.reported ≠ 0 →
    objects.IsCommitHash first.current ∧ second.current = first.current
  kept : first.reported = 0 → first.current = first.previous ∧ second.current = second.previous

/-- The lines that are saved for a summary. -/
def Summary.savedText (summary : Summary) : String :=
  Text.unlines (summary.branches.map fun line => line.branch ++ " " ++ line.current)

/-- What two runs tell of marks that are spelled in two ways. -/
structure Summary.Respelled (objects : ObjectStore) (marks marks' : List (String × String))
    (first second : Summary) : Prop where
  persisted : second.persisted = first.persisted
  branches : List.Forall₂ (BranchSummary.Respelled objects) first.branches second.branches
  marks : first.branches.map (fun line => (line.branch, line.previous)) = marks
  marks' : second.branches.map (fun line => (line.branch, line.previous)) = marks'

/-! ## Advances -/

/-- Two advances of a watermark, in two spellings, over the same commits. -/
structure Advance.Respelled (objects : ObjectStore) (first second : Advance) : Prop where
  summary : first.summary.Respelled objects second.summary
  line : first.current.line = first.summary.branch ++ " " ++ first.summary.current
  line' : second.current.line = second.summary.branch ++ " " ++ second.summary.current

/-- Advances of watermarks that are spelled in two ways, each over the same commits. -/
structure Advance.AllRespelled (objects : ObjectStore) (marks marks' : List (String × String))
    (first second : List Advance) : Prop where
  each : List.Forall₂ (Advance.Respelled objects) first second
  marks : first.map (fun a => (a.summary.branch, a.summary.previous)) = marks
  marks' : second.map (fun a => (a.summary.branch, a.summary.previous)) = marks'

/-- The lines that are saved are those of the summaries. -/
theorem Advance.render_of_respelled {objects : ObjectStore} {first second : List Advance}
    (h : List.Forall₂ (Advance.Respelled objects) first second) (persisted : Bool) :
    Watermarks.render (first.map (·.current)) =
        Summary.savedText { branches := first.map (·.summary), persisted } ∧
      Watermarks.render (second.map (·.current)) =
        Summary.savedText { branches := second.map (·.summary), persisted } := by
  have hlines : first.map (Commit.line ∘ Advance.current) =
        first.map ((fun line => line.branch ++ " " ++ line.current) ∘ Advance.summary) ∧
      second.map (Commit.line ∘ Advance.current) =
        second.map ((fun line => line.branch ++ " " ++ line.current) ∘ Advance.summary) := by
    induction h with
    | nil => exact ⟨rfl, rfl⟩
    | cons hfirst _ ih =>
      exact ⟨congrArg₂ List.cons hfirst.line ih.1, congrArg₂ List.cons hfirst.line' ih.2⟩
  unfold Watermarks.render Summary.savedText
  simp only [List.map_map]
  exact ⟨congrArg Text.unlines hlines.1, congrArg Text.unlines hlines.2⟩

theorem Advance.over_respelled {objects : ObjectStore} {watermark watermark' : Commit}
    {commits : List Commit} (hbranch : watermark'.branch = watermark.branch)
    (hfull : ∀ commit ∈ commits,
      commit.branch = watermark.branch ∧ objects.IsCommitHash commit.hash) :
    (Advance.over watermark commits).Respelled objects (.over watermark' commits) := by
  rcases List.eq_nil_or_concat commits with rfl | ⟨front, last, rfl⟩
  · exact ⟨⟨congrArg Branch.name hbranch, rfl, fun h => absurd rfl h, fun _ => ⟨rfl, rfl⟩⟩, rfl, rfl⟩
  · obtain ⟨hlast, hhash⟩ := hfull last (by simp)
    have hover : ∀ watermark : Commit, Advance.over watermark (front.concat last) =
        { current := last
          summary :=
            { branch := watermark.branch.name, previous := watermark.hash
              current := last.hash, reported := front.length + 1 } } := by
      intro watermark
      simp [Advance.over]
    rw [hover, hover]
    refine ⟨⟨congrArg Branch.name hbranch, rfl, fun _ => ⟨hhash, rfl⟩,
      fun hnone => absurd hnone (Nat.succ_ne_zero _)⟩, ?_, ?_⟩
    · rw [Commit.line, hlast]
    · rw [Commit.line, hlast, hbranch]

/-- Each line of the summary is about its own watermark. -/
theorem marks_of_advances {ρ κ : Type} [History ρ] [Sink κ] {settings : Settings} {dryRun : Bool} :
    ∀ {watermarks : List Commit} {advances : List Advance} {site after : Site (ρ × κ)},
      (watermarks.mapM (advance settings dryRun)).perform site = (.ok advances, after) →
      advances.map (fun a => (a.summary.branch, a.summary.previous)) =
        watermarks.map Watermarks.markOf := by
  intro watermarks
  induction watermarks with
  | nil =>
    intro advances site after h
    cases h
    rfl
  | cons watermark rest ih =>
    intro advances site after h
    rw [List.mapM_cons] at h
    obtain ⟨first, between, hfirst, h⟩ := Action.perform_bind_eq_ok.mp h
    obtain ⟨more, _, hmore, h⟩ := Action.perform_bind_eq_ok.mp h
    cases h
    obtain ⟨commits, _, -, h⟩ := Action.perform_bind_eq_ok.mp hfirst
    obtain ⟨_, _, -, h⟩ := Action.perform_bind_eq_ok.mp h
    cases h
    rw [List.map_cons, List.map_cons, ih hmore]
    rfl

section Advances

variable {start : Workspace} {checkout : Bool} {branches : List String} {place : Place}

/-- The sites of two runs: those of the histories are twins, and the mailboxes are the same. -/
def TwinRuns (start : Workspace) (checkout : Bool) (branches : List String) (place : Place) :
    Site (Workspace × Mailbox) → Site (Workspace × Mailbox) → Prop :=
  Site.Paired (Workspace.Twins start checkout branches place) fun box box' => box' = box

theorem deliver_simulates (commit message : String) :
    (Action.onSecond (Sink.deliver commit message) : Action (Workspace × Mailbox) Unit).Simulates
      (TwinRuns start checkout branches place) (Action.onSecond (Sink.deliver commit message)) := by
  rintro ⟨⟨workspace, box⟩, files, notes⟩ ⟨⟨workspace', box'⟩, files', notes'⟩ ⟨hfirst, hbox⟩
  obtain rfl : box' = box := hbox
  simp only [Action.perform_onSecond, Sink.deliver, Mailbox.deliver, Action.perform_bind,
    Action.perform_resource]
  split <;> exact ⟨rfl, hfirst, rfl⟩

/-- **A watermark advances over the same commits however it is spelled.** -/
theorem advance_parallels {settings : Settings} (dryRun : Bool) {m m' : String × String}
    (hmark : SameMark start.here settings.checkoutBranches m m') (hname : m.1 ∈ branches)
    (huntracked : settings.checkoutBranches = true → start.Untracked branches place) :
    (advance settings dryRun (Watermarks.ofMark m) : Action (Workspace × Mailbox) Advance).Parallels
      (TwinRuns start settings.checkoutBranches branches place)
      (advance settings dryRun (Watermarks.ofMark m'))
      (Advance.Respelled start.here.objects) := by
  obtain ⟨id, hstands, hstands'⟩ := hmark.commit
  have hbranch : (Watermarks.ofMark m').branch = (Watermarks.ofMark m).branch := by
    rw [Watermarks.ofMark, Watermarks.ofMark, hmark.branch]
  let R := Workspace.Twins start settings.checkoutBranches branches place
  have hfound : (discover (Watermarks.ofMark m) settings.checkoutBranches).Parallels R
      (discover (Watermarks.ofMark m') settings.checkoutBranches)
      (Workspace.SameListing start.here.objects (Watermarks.ofMark m).branch) :=
    Workspace.discover_parallels hstands hstands' hbranch hname huntracked
  have hconcurs : History.Concurs R := Workspace.Twins.same.concurs
  refine Action.Parallels.bind (.paired hfound) ?_
  rintro commits _ ⟨hfull, rfl⟩
  have hdispatched := Action.Simulates.forM
    (dispatch_simulates deliver_simulates hconcurs settings.correspondence dryRun) commits
  exact .bind_simulates hdispatched fun _ => .pure (Advance.over_respelled hbranch hfull)

/-- The watermarks advance in step. -/
theorem advanceAll_parallels {settings : Settings} (dryRun : Bool)
    {marks marks' : List (String × String)}
    (hmarks : List.Forall₂ (SameMark start.here settings.checkoutBranches) marks marks')
    (huntracked : settings.checkoutBranches = true →
      start.Untracked (marks.map (·.1)) place) :
    ((marks.map Watermarks.ofMark).mapM (advance settings dryRun) :
        Action (Workspace × Mailbox) (List Advance)).Parallels
      (TwinRuns start settings.checkoutBranches (marks.map (·.1)) place)
      ((marks'.map Watermarks.ofMark).mapM (advance settings dryRun))
      (Advance.AllRespelled start.here.objects marks marks') := by
  have hnamed : ∀ m ∈ marks, m.1 ∈ marks.map (·.1) := fun m hm => List.mem_map_of_mem hm
  have hadvance : List.Forall₂ (fun m m' =>
      (advance settings dryRun (Watermarks.ofMark m) :
        Action (Workspace × Mailbox) Advance).Parallels
        (TwinRuns start settings.checkoutBranches (marks.map (·.1)) place)
        (advance settings dryRun (Watermarks.ofMark m'))
        (Advance.Respelled start.here.objects)) marks marks' := by
    refine ((List.forall₂_and_left _ _).mpr ⟨hnamed, hmarks⟩).imp fun m m' hmark => ?_
    exact advance_parallels dryRun hmark.2 hmark.1 huntracked
  have hall := Action.Parallels.mapM
    (List.forall₂_map_left_iff.mpr (List.forall₂_map_right_iff.mpr hadvance))
  intro site site' hsites
  obtain ⟨hresult, hafter⟩ := hall site site' hsites
  refine ⟨?_, hafter⟩
  rcases hp : ((marks.map Watermarks.ofMark).mapM (advance settings dryRun) :
    Action (Workspace × Mailbox) (List Advance)).perform site with ⟨result, after⟩
  rcases hp' : ((marks'.map Watermarks.ofMark).mapM (advance settings dryRun) :
    Action (Workspace × Mailbox) (List Advance)).perform site' with ⟨result', after'⟩
  rw [hp, hp'] at hresult
  cases hresult with
  | error e => exact .error e
  | ok heach =>
    refine .ok ⟨heach, (marks_of_advances hp).trans ?_, (marks_of_advances hp').trans ?_⟩
    · rw [List.map_map]
      exact List.map_id marks
    · rw [List.map_map]
      exact List.map_id marks'

end Advances

/-! ## Two state files -/

/-- A text was saved: it is in the file at a place, and is read wherever the path still leads to a
file. -/
structure Files.Saved (files : Files) (path : String) (place : Place) (text : String) : Prop where
  file : files.find? place = some (.file text.toUTF8 false)
  read : ∀ place, files.writable path = .ok place → files.readText path = .ok text

namespace Stage

/-- Two state files name the same branches in the same order, and with each a hash that stands for the
same commit. -/
structure Respells (stage : Stage Workspace) (text text' : String) : Prop where
  wellFormed : ∀ line ∈ Text.linesOf text, Watermarks.Line.read line ≠ .malformed
  wellFormed' : ∀ line ∈ Text.linesOf text', Watermarks.Line.read line ≠ .malformed
  marks : List.Forall₂ (SameMark stage.history.here stage.settings.checkoutBranches)
    (Watermarks.marksOf text) (Watermarks.marksOf text')

variable {stage : Stage Workspace} {text text' : String} {branches : List String} {dryRun : Bool}

/-- Loading changes neither the repository nor the files. -/
theorem prepare_settled (stage : Stage Workspace) (text : String) (dryRun : Bool) :
    (prepare stage.settings { dryRun } : Action Workspace (List Commit)).Settled
      (fun r d => r = stage.history ∧ d = (stage.site text).files)
      (stage.history.names.loaded stage.settings.stateFile stage.settings.checkoutBranches
        (.ok text)) := by
  intro site hsite
  have hloaded := (stage.history.names_hold (stage.site text).files).load stage.settings.stateFile
    stage.settings.checkoutBranches site hsite
  rwa [hsite.2, stage.readText_site text] at hloaded

/-- Disks that differ in the state file are alike. -/
theorem twins_of_loaded (checkout : Bool) {now now' : Site Workspace}
    (hnow : now.resource = stage.history ∧ now.files = (stage.site text).files)
    (hnow' : now'.resource = stage.history ∧ now'.files = (stage.site text').files) :
    Workspace.Twins stage.history checkout branches stage.place now now' where
  resource := hnow'.1.trans hnow.1.symm
  files := by
    rw [hnow.2, hnow'.2]
    apply Files.Alike.store
    exact beq_self_eq_true stage.place
  room := by
    obtain ⟨mode, hstore⟩ := stage.disk.exists_store_eq_put stage.place
    rw [hnow.2, site, hstore]
    exact stage.room
  root := congrArg Workspace.root hnow.1
  since := by
    rw [hnow.1]
    exact ⟨.refl _ _, .inl rfl⟩

theorem Respells.symm (h : stage.Respells text text') : stage.Respells text' text :=
  ⟨h.wellFormed', h.wellFormed, h.marks.flip.imp fun _ _ => SameMark.symm⟩

theorem Respells.resolve (h : stage.Respells text text') :
    ∀ m ∈ Watermarks.marksOf text, ∃ target, stage.history.names.resolve m.2 = .ok target := by
  have hresolve : List.Forall₂ (fun m _ => (∃ target, stage.history.names.resolve m.2 = .ok target) ∧
      True) (Watermarks.marksOf text) (Watermarks.marksOf text') := by
    refine h.marks.imp fun m m' hmark => ⟨?_, trivial⟩
    obtain ⟨id, hstands, -⟩ := hmark.commit
    refine ⟨id.hex, ?_⟩
    show stage.history.found m.2 = .ok id.hex
    rw [Workspace.found, hstands.commitNamed?]
  exact ((List.forall₂_and_left _ _).mp hresolve).1

/-- Both files are loaded, or neither is, on account of the same branch. -/
theorem Respells.loaded (h : stage.Respells text text') :
    Action.Likewise (fun watermarks watermarks' =>
        watermarks = (Watermarks.marksOf text).map Watermarks.ofMark ∧
        watermarks' = (Watermarks.marksOf text').map Watermarks.ofMark)
      (stage.history.names.loaded stage.settings.stateFile stage.settings.checkoutBranches (.ok text))
      (stage.history.names.loaded stage.settings.stateFile stage.settings.checkoutBranches
        (.ok text')) := by
  have hbranches : (Watermarks.marksOf text').map (·.1) = (Watermarks.marksOf text).map (·.1) := by
    rw [← List.forall₂_eq_eq_eq, List.forall₂_map_left_iff, List.forall₂_map_right_iff]
    exact h.symm.marks.imp fun _ _ hmark => hmark.branch.symm
  rw [Names.loaded_of_resolve h.wellFormed h.resolve,
    Names.loaded_of_resolve h.wellFormed' h.symm.resolve, hbranches]
  cases ((Watermarks.marksOf text).map (·.1)).mapM
    (stage.history.names.branch stage.settings.checkoutBranches) with
  | error e => exact .error e
  | ok found => exact .ok ⟨rfl, rfl⟩

/-- **Up to the saving, the two runs go on side by side.** -/
theorem Respells.reach (h : stage.Respells text text') (dryRun : Bool)
    (huntracked : stage.settings.checkoutBranches = true →
      stage.history.Untracked ((Watermarks.marksOf text).map (·.1)) stage.place) :
    let first := (CommitReports.reach stage.settings { dryRun }).perform (stage.site text)
    let second := (CommitReports.reach stage.settings { dryRun }).perform (stage.site text')
    Action.Likewise (Advance.AllRespelled stage.history.here.objects (Watermarks.marksOf text)
        (Watermarks.marksOf text')) first.1 second.1 ∧
      TwinRuns stage.history stage.settings.checkoutBranches ((Watermarks.marksOf text).map (·.1))
        stage.place first.2 second.2 := by
  intro first second
  obtain ⟨hloaded, hnow, hbox⟩ := (stage.prepare_settled text dryRun).onFirst (L := (· = stage.box))
    (stage.site text) ⟨⟨rfl, rfl⟩, rfl⟩
  obtain ⟨hloaded', hnow', hbox'⟩ := (stage.prepare_settled text' dryRun).onFirst
    (L := (· = stage.box)) (stage.site text') ⟨⟨rfl, rfl⟩, rfl⟩
  have hlikewise := h.loaded
  rw [← hloaded, ← hloaded'] at hlikewise
  -- Loading is compared by what it gives: the lines that are read are not the same. From there on
  -- the sites are twins, and the actions are compared step by step.
  unfold first second CommitReports.reach
  rw [Action.perform_bind, Action.perform_bind]
  rcases hp : (Action.onFirst (prepare stage.settings { dryRun }) :
    Action (Workspace × Mailbox) (List Commit)).perform (stage.site text) with ⟨result, now⟩
  rcases hp' : (Action.onFirst (prepare stage.settings { dryRun }) :
    Action (Workspace × Mailbox) (List Commit)).perform (stage.site text') with ⟨result', now'⟩
  rw [hp] at hnow hbox hlikewise
  rw [hp'] at hnow' hbox' hlikewise
  have htwins : TwinRuns stage.history stage.settings.checkoutBranches
      ((Watermarks.marksOf text).map (·.1)) stage.place now now' :=
    ⟨twins_of_loaded _ hnow hnow', hbox'.trans hbox.symm⟩
  cases hlikewise with
  | error e => exact ⟨.error e, htwins⟩
  | ok hmarks =>
    obtain ⟨rfl, rfl⟩ := hmarks
    exact advanceAll_parallels dryRun h.marks huntracked now now' htwins

end Stage

/-! ## The end of the runs -/

section End

variable {settings : Settings} {objects : ObjectStore} {marks marks' : List (String × String)}
  {advances advances' : List Advance}

theorem Advance.AllRespelled.summary (h : Advance.AllRespelled objects marks marks' advances advances')
    (persisted : Bool) : Summary.Respelled objects marks marks'
      { branches := advances.map (·.summary), persisted }
      { branches := advances'.map (·.summary), persisted } where
  persisted := rfl
  branches := List.forall₂_map_left_iff.mpr (List.forall₂_map_right_iff.mpr
    (h.each.imp fun _ _ hadvance => hadvance.summary))
  marks := (List.map_map ..).trans h.marks
  marks' := (List.map_map ..).trans h.marks'

theorem Files.saved_of_replace {files after : Files} {path text : String} {place : Place}
    (h : files.replace path text.toUTF8 = (.ok (), after))
    (hfile : after.find? place = some (.file text.toUTF8 false)) : after.Saved path place text :=
  ⟨hfile, fun _ hpath => Files.readText_eq_ok_iff.mpr (Files.read_of_replaced h hpath)⟩

/-- What two runs have come to when they end: the same failure, or summaries that tell the same, with
what was saved for each in a file at the same place. -/
inductive SameEnd (settings : Settings) (dryRun : Bool) (objects : ObjectStore)
    (marks marks' : List (String × String)) :
    Except Failure Summary × Files → Except Failure Summary × Files → Prop
  | error (e : Failure) (files files' : Files) :
      SameEnd settings dryRun objects marks marks' (.error e, files) (.error e, files')
  | ok {summary summary' : Summary} {files files' : Files}
      (hsummary : Summary.Respelled objects marks marks' summary summary')
      (hsaved : dryRun = false → ∃ place, files.Saved settings.stateFile place summary.savedText ∧
        files'.Saved settings.stateFile place summary'.savedText) :
      SameEnd settings dryRun objects marks marks' (.ok summary, files) (.ok summary', files')

theorem conclude_respelled {ρ : Type} {site site' : Site ρ} {hidden : Place → Bool}
    (halike : site.files.Alike hidden site'.files) (hroom : site.files.refusals.append = none)
    (h : Advance.AllRespelled objects marks marks' advances advances') (dryRun : Bool) :
    let first := (conclude settings dryRun advances).perform site
    let second := (conclude settings dryRun advances').perform site'
    SameEnd settings dryRun objects marks marks' (first.1, first.2.files)
      (second.1, second.2.files) := by
  intro first second
  cases dryRun with
  | true => exact .ok (h.summary false) nofun
  | false =>
    unfold first second
    obtain ⟨htext, htext'⟩ := Advance.render_of_respelled h.each true
    -- The texts that are saved differ, so the disks stay alike only up to all contents.
    rw [perform_conclude, perform_conclude, htext, htext']
    have hsame := (halike.replace hroom settings.stateFile
      (Summary.savedText { branches := advances.map (·.summary), persisted := true }).toUTF8
      (Summary.savedText { branches := advances'.map (·.summary), persisted := true }).toUTF8).1
    rcases hreplace : site.files.replace settings.stateFile
      (Summary.savedText { branches := advances.map (·.summary), persisted := true }).toUTF8 with
      ⟨⟨blamed, e⟩ | ⟨⟨⟩⟩, files⟩ <;>
    rcases hreplace' : site'.files.replace settings.stateFile
      (Summary.savedText { branches := advances'.map (·.summary), persisted := true }).toUTF8 with
      ⟨⟨blamed', e'⟩ | ⟨⟨⟩⟩, files'⟩ <;>
    rw [hreplace, hreplace'] at hsame <;> cases hsame
    · exact .error _ _ _
    · obtain ⟨place, hfile, hfile'⟩ := halike.replace_same_place hreplace hreplace'
      exact .ok (h.summary true) fun _ =>
        ⟨place, Files.saved_of_replace hreplace hfile, Files.saved_of_replace hreplace' hfile'⟩

end End

/-! ## A state file that is tracked -/

/-- The state file is the one that a commit has, or another one. -/
def Stage.keeping (tracked : Bool) : Stage Workspace where
  history := .keeping false
  box := { name := "box" }
  disk := { entries := [(["state"], .file "dev aaaa\n".toUTF8 false)], here := [] }
  settings := { Settings.sample with
    stateFile := if tracked then "/state" else "/marks", checkoutBranches := true }
  place := [if tracked then "state" else "marks"]
  willing := rfl
  path := by cases tracked <;> cbv
  room := rfl

theorem areFields_keeping : ∀ hash ∈ ["aaaa", (ObjectId.uniform 'a').hex], ∀ m ∈ [("dev", hash)],
    Watermarks.AreFields m := by
  have hfields : Text.fields "dev aaaa" = ["dev", "aaaa"] := by cbv
  have hlong : Text.IsField (ObjectId.uniform 'a').hex := by
    refine ⟨by decide +kernel, fun c hc => ?_⟩
    rw [ObjectId.uniform, String.toList_ofList] at hc
    rw [List.eq_of_mem_replicate hc]
    decide
  intro hash hhash m hm
  obtain rfl := List.mem_singleton.mp hm
  refine ⟨Text.mem_fields (by rw [hfields]; simp), ?_⟩
  rcases List.mem_pair.mp hhash with rfl | rfl
  · exact Text.mem_fields (by rw [hfields]; simp)
  · exact hlong

namespace Stage

theorem respells_keeping (tracked : Bool) :
    (keeping tracked).Respells (Watermarks.plain [("dev", "aaaa")])
      (Watermarks.plain [("dev", (ObjectId.uniform 'a').hex)]) := by
  have hread : ∀ hash ∈ ["aaaa", (ObjectId.uniform 'a').hex],
      ∀ line ∈ Text.linesOf (Watermarks.plain [("dev", hash)]),
        Watermarks.Line.read line ≠ .malformed := by
    intro hash hhash line hline
    obtain ⟨m, -, hread⟩ := Watermarks.read_of_mem_plain (areFields_keeping hash hhash) hline
    rw [hread]
    nofun
  have hstands : ∀ hash ∈ ["aaaa", (ObjectId.uniform 'a').hex],
      (Repository.keeping false).Stands true hash (.uniform 'a') := fun hash hhash =>
    (Repository.isHash_keeping false hhash).stands (Repository.commitNamed?_spelled false hhash) _
  refine ⟨hread _ (by simp), hread _ (by simp), ?_⟩
  rw [Watermarks.marksOf_plain (areFields_keeping _ (by simp)),
    Watermarks.marksOf_plain (areFields_keeping _ (by simp))]
  exact .cons ⟨rfl, _, hstands _ (by simp), hstands _ (by simp)⟩ .nil

theorem loaded_keeping (tracked : Bool) {hash : String}
    (hhash : hash ∈ ["aaaa", (ObjectId.uniform 'a').hex]) :
    (keeping tracked).history.names.loaded (keeping tracked).settings.stateFile
        (keeping tracked).settings.checkoutBranches (.ok (Watermarks.plain [("dev", hash)])) =
      .ok [Watermarks.ofMark ("dev", hash)] := by
  have hfields := areFields_keeping hash hhash
  have hnamed := Repository.commitNamed?_spelled false hhash
  refine Names.loaded_eq_ok_iff.mpr ⟨_, rfl, Watermarks.accepts_plain ?_, ?_⟩
  · intro m hm
    refine ⟨hfields m hm, ?_⟩
    obtain rfl := List.mem_singleton.mp hm
    obtain ⟨hbranch, hlocal, -⟩ := Names.branch_eq_ok_iff.mp Workspace.branch_keeping
    refine ⟨hbranch, fun _ => hlocal rfl, (ObjectId.uniform 'a').hex, ?_⟩
    show (Workspace.keeping false).found hash = _
    rw [Workspace.found, show (Workspace.keeping false).here = .keeping false from rfl, hnamed]
  · rw [Watermarks.marksOf_plain hfields]
    rfl

/-- The branch is checked out and has nothing new, unless the file that is tracked was changed. -/
theorem reach_keeping (tracked : Bool) {hash : String}
    (hhash : hash ∈ ["aaaa", (ObjectId.uniform 'a').hex]) {content : ByteArray}
    (hentry : ((keeping tracked).site (Watermarks.plain [("dev", hash)])).files.find? ["state"] =
      some (.file content false)) :
    ∃ notes, (CommitReports.reach (keeping tracked).settings {}).perform
        ((keeping tracked).site (Watermarks.plain [("dev", hash)])) =
      if Worktree.holds .keeping (.file content false) ⟨.regular, .uniform 'f'⟩ then
        (.ok [.over (Watermarks.ofMark ("dev", hash)) []],
          { resource := (Workspace.keeping true, (keeping tracked).box)
            files :=
              ((keeping tracked).site (Watermarks.plain [("dev", hash)])).files.erase ["state"]
            notes })
      else (.error (.unavailable "1 conflict prevents checkout"),
        { (keeping tracked).site (Watermarks.plain [("dev", hash)]) with notes }) := by
  have hload := (prepare_settled (keeping tracked) (Watermarks.plain [("dev", hash)]) false).onFirst
    (L := (· = (keeping tracked).box)) ((keeping tracked).site (Watermarks.plain [("dev", hash)]))
    ⟨⟨rfl, rfl⟩, rfl⟩
  rw [loaded_keeping tracked hhash] at hload
  obtain ⟨hresult, ⟨hresource, hfiles⟩, hbox⟩ := hload
  unfold CommitReports.reach
  rw [Action.perform_bind]
  rcases hp : (Action.onFirst (prepare (keeping tracked).settings {}) :
    Action (Workspace × Mailbox) (List Commit)).perform
      ((keeping tracked).site (Watermarks.plain [("dev", hash)])) with
    ⟨result, ⟨⟨workspace, box⟩, files, notes⟩⟩
  rw [hp] at hresult hresource hfiles hbox
  subst hresult hresource hfiles hbox
  obtain ⟨said, hdiscover⟩ := Workspace.discover_keeping
    (Repository.commitNamed?_spelled true hhash) hentry notes
  have hsettings : (keeping tracked).settings.checkoutBranches = true := rfl
  dsimp only
  rw [List.mapM_cons, Action.perform_bind, advance, hsettings, Action.perform_bind,
    Action.perform_onFirst]
  dsimp only
  rw [show (keeping tracked).history = Workspace.keeping false from rfl, hdiscover]
  cases Worktree.holds .keeping (.file content false) ⟨.regular, .uniform 'f'⟩ with
  | false => exact ⟨said, rfl⟩
  | true => exact ⟨said, rfl⟩

/-- The run whose watermark is in its first digits succeeds. -/
theorem run_keeping (tracked : Bool) :
    ((run (keeping tracked).settings {}).perform
        ((keeping tracked).site (Watermarks.plain [("dev", "aaaa")]))).1 = .ok
      { branches := [{ branch := "dev", previous := "aaaa", current := "aaaa", reported := 0 }]
        persisted := true } := by
  have hheld : Worktree.holds .keeping (.file (Watermarks.plain [("dev", "aaaa")]).toUTF8 false)
      ⟨.regular, .uniform 'f'⟩ = true := by
    decide +kernel
  have hentry : ((keeping tracked).site (Watermarks.plain [("dev", "aaaa")])).files.find?
      ["state"] = some (.file (Watermarks.plain [("dev", "aaaa")]).toUTF8 false) := by
    cases tracked with
    | false => cbv
    | true => cbv
  have hreplaced : ((((keeping tracked).site (Watermarks.plain [("dev", "aaaa")])).files.erase
      ["state"]).replace (keeping tracked).settings.stateFile
        (Watermarks.plain [("dev", "aaaa")]).toUTF8).1 = .ok () := by
    cases tracked with
    | false => cbv
    | true => cbv
  obtain ⟨notes, hreach⟩ := reach_keeping tracked (by simp) hentry
  rw [hheld, if_pos rfl] at hreach
  obtain ⟨after, hconclude, -⟩ := exists_conclude (keeping tracked).settings false
    [.over (Watermarks.ofMark ("dev", "aaaa")) []]
    { resource := (Workspace.keeping true, (keeping tracked).box)
      files := ((keeping tracked).site (Watermarks.plain [("dev", "aaaa")])).files.erase ["state"]
      notes } (Prod.ext hreplaced rfl)
  rw [perform_run, hreach]
  dsimp only
  rw [hconclude]
  rfl

end Stage

/-! ## Whole runs -/

/-- **The spelling of a watermark does not matter.** Two runs on state files that name the same commits
deliver the same, and end alike. -/
theorem run_respelled (stage : Stage Workspace) {text text' : String}
    (h : stage.Respells text text') (dryRun : Bool)
    (huntracked : stage.settings.checkoutBranches = true →
      stage.history.Untracked ((Watermarks.marksOf text).map (·.1)) stage.place) :
    let first := (run stage.settings { dryRun }).perform (stage.site text)
    let second := (run stage.settings { dryRun }).perform (stage.site text')
    second.2.resource.2 = first.2.resource.2 ∧
      SameEnd stage.settings dryRun stage.history.here.objects (Watermarks.marksOf text)
        (Watermarks.marksOf text') (first.1, first.2.files) (second.1, second.2.files) := by
  intro first second
  obtain ⟨hlikewise, htwins, hbox⟩ := h.reach dryRun huntracked
  have hfirst := perform_run stage.settings { dryRun } (stage.site text)
  have hsecond := perform_run stage.settings { dryRun } (stage.site text')
  rcases hp : (reach stage.settings { dryRun }).perform (stage.site text) with ⟨result, now⟩
  rcases hp' : (reach stage.settings { dryRun }).perform (stage.site text') with ⟨result', now'⟩
  rw [hp] at hfirst hlikewise htwins hbox
  rw [hp'] at hsecond hlikewise htwins hbox
  have hfiles : now.files.Alike (· == stage.place) now'.files := htwins.files
  have hroom : now.files.refusals.append = none := htwins.room
  unfold first second
  rw [hfirst, hsecond]
  cases hlikewise with
  | error e => exact ⟨hbox, .error _ _ _⟩
  | ok hadvances =>
    refine ⟨?_, conclude_respelled hfiles hroom hadvances dryRun⟩
    dsimp only
    rw [conclude_resource, conclude_resource]
    exact hbox

/-- Where the state file is not tracked, an abbreviation is as good as the full hash. -/
theorem run_respelled_keeping :
    let stage := Stage.keeping false
    let text := Watermarks.plain [("dev", "aaaa")]
    let text' := Watermarks.plain [("dev", (ObjectId.uniform 'a').hex)]
    let first := (run stage.settings {}).perform (stage.site text)
    let second := (run stage.settings {}).perform (stage.site text')
    stage.Respells text text' ∧
      stage.history.Untracked ((Watermarks.marksOf text).map (·.1)) stage.place ∧
      first.1 = .ok
        { branches := [{ branch := "dev", previous := "aaaa", current := "aaaa", reported := 0 }]
          persisted := true } ∧
      second.2.resource.2 = first.2.resource.2 ∧
      SameEnd stage.settings false stage.history.here.objects (Watermarks.marksOf text)
        (Watermarks.marksOf text') (first.1, first.2.files) (second.1, second.2.files) := by
  intro stage text text' first second
  have hrespells : stage.Respells text text' := Stage.respells_keeping false
  have huntracked : stage.history.Untracked ((Watermarks.marksOf text).map (·.1)) stage.place := by
    rw [Watermarks.marksOf_plain (areFields_keeping _ (by simp))]
    exact Workspace.untracked_keeping (by decide)
  exact ⟨hrespells, huntracked, Stage.run_keeping false,
    run_respelled stage hrespells false fun _ => huntracked⟩

/-- A state file that is tracked may be spelled as the branch has it that is left, or else be taken
for a file that was changed. -/
theorem not_run_respelled_tracked :
    let stage := Stage.keeping true
    let text := Watermarks.plain [("dev", "aaaa")]
    let text' := Watermarks.plain [("dev", (ObjectId.uniform 'a').hex)]
    stage.Respells text text' ∧
      ((run stage.settings {}).perform (stage.site text)).1 = .ok
        { branches := [{ branch := "dev", previous := "aaaa", current := "aaaa", reported := 0 }]
          persisted := true } ∧
      ((run stage.settings {}).perform (stage.site text')).1 =
        .error (.unavailable "1 conflict prevents checkout") := by
  intro stage text text'
  refine ⟨Stage.respells_keeping true, Stage.run_keeping true, ?_⟩
  have hheld : Worktree.holds .keeping (.file text'.toUTF8 false) ⟨.regular, .uniform 'f'⟩ =
      false := by
    decide +kernel
  obtain ⟨notes, hreach⟩ := Stage.reach_keeping true (List.mem_pair.mpr (.inr rfl)) rfl
  rw [hheld] at hreach
  rw [perform_run, hreach]
  rfl

end CommitReports
