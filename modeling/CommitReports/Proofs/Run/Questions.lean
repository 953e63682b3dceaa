import CommitReports.Proofs.Files.Replacement
import CommitReports.Proofs.History.Question
import CommitReports.Proofs.Report.Compose
import CommitReports.Run

/-!
# What a run asks, and what it leaves alone

Each part of a run keeps whatever the questions keep that it asks. Up to the
loaded watermarks these are all but checkouts (`prepare_keeps`); reporting on a
line may ask anything, but does nothing to the history and to the files besides
(`advance_keeps`). At the end only the saving of the watermarks touches the
files, and it does so only if it succeeds (`conclude_unsaved`). So a run that
fails or is a dry one keeps whatever its questions and deliveries keep
(`run_keeps`); a dry run delivers nothing, so there the questions alone count
(`dryRun_keeps`).
-/

namespace CommitReports

variable {ρ κ : Type} [History ρ] [Sink κ] {asked : Question → Prop} {I : ρ → Files → Prop}

/-! ## Names and commits -/

theorem Revision.lookup_keeps (h : History.Keeps asked I) (hq : ∀ name, asked (.resolve name))
    (name : String) : (Revision.lookup name : Action ρ Revision).Keeps I :=
  ((h.resolve (hq name)).bind fun _ => .pure _).bind fun _ => .pure _

theorem Branch.lookup_keeps (h : History.Keeps asked I) (hq : ∀ name, asked (.resolve name))
    (name : String) : (Branch.lookup name : Action ρ Branch).Keeps I :=
  (Revision.lookup_keeps h hq name).bind fun _ => .pure _

theorem Commit.lookup_keeps (h : History.Keeps asked I) (hq : ∀ name, asked (.resolve name))
    (hash : String) (branch : Branch) : (Commit.lookup hash branch : Action ρ Commit).Keeps I :=
  (Revision.lookup_keeps h hq hash).bind fun _ => .pure _

/-! ## Up to the watermarks -/

section Names

variable (h : History.Keeps asked I) (hresolve : ∀ name, asked (.resolve name))
  (hlocal : ∀ name, asked (.hasLocalBranch name))

include h hresolve hlocal

theorem Watermarks.verified_keeps (localOnly : Bool) (branch hash : String) :
    (Watermarks.verified localOnly branch hash : Action ρ Commit).Keeps I := by
  have hbranch := Branch.lookup_keeps h hresolve branch
  have hcommit := Commit.lookup_keeps h hresolve hash
  cases localOnly with
  | false => exact hbranch.bind hcommit
  | true =>
    refine Action.Keeps.bind (hbranch.bind fun found => ?_) hcommit
    refine (h.hasLocalBranch (hlocal branch)).bind fun isLocal => ?_
    cases isLocal with
    | true => exact .pure _
    | false => exact .throw _

theorem Watermarks.readLines_keeps (path : String) (localOnly : Bool) :
    ∀ (lines : List String) (number : Nat),
      (Watermarks.readLines path localOnly number lines : Action ρ (List Commit)).Keeps I := by
  intro lines
  induction lines with
  | nil => exact fun _ => .pure _
  | cons line rest ih =>
    intro number
    rw [Watermarks.readLines]
    split
    next => exact ih _
    next => exact .throw _
    next branch hash _ =>
      exact (verified_keeps h hresolve hlocal localOnly branch hash).bind fun _ =>
        (ih _).bind fun _ => .pure _

/-- Loading the watermarks asks for names only. -/
theorem Watermarks.load_keeps (path : String) (localOnly : Bool) :
    (Watermarks.load path localOnly : Action ρ (List Commit)).Keeps I := by
  refine Action.Keeps.bind .files fun files => ?_
  split
  next => exact .throw _
  next text _ =>
    exact (readLines_keeps h hresolve hlocal path localOnly _ _).bind fun _ =>
      (Action.Keeps.say _).bind fun _ => .pure _

end Names

/-- Up to the loaded watermarks, no branch is shown in the working tree. -/
theorem prepare_keeps (h : History.Keeps (fun q => q.isCheckout = false) I) (settings : Settings)
    (options : RunOptions) : (prepare settings options : Action ρ (List Commit)).Keeps I := by
  have hload := Watermarks.load_keeps h (fun _ => rfl) (fun _ => rfl) settings.stateFile
    settings.checkoutBranches
  unfold prepare
  split
  next => exact (Action.Keeps.say _).bind fun _ => (h.refresh rfl).bind fun _ => hload
  next => exact hload

/-! ## Reports -/

/-- The listing alone, of a branch that is not shown first. -/
theorem discover_false_keeps {asked : Question → Prop} (h : History.Keeps asked I)
    (hresolve : ∀ revision, asked (.resolve revision))
    (hbetween : ∀ since upto, asked (.commitsBetween since upto)) (watermark : Commit) :
    (discover watermark false : Action ρ (List Commit)).Keeps I := by
  have hnew : (watermark.newCommitsSince watermark.branch : Action ρ (List Commit)).Keeps I :=
    (h.commitsBetween (hbetween _ _)).bind fun hashes =>
      .mapM (fun hash => Commit.lookup_keeps h hresolve hash watermark.branch) hashes
  exact hnew.bind fun _ => (Action.Keeps.say _).bind fun _ => .pure _

theorem discover_keeps (h : History.Keeps (fun _ => True) I) (watermark : Commit) (checkout : Bool) :
    (discover watermark checkout : Action ρ (List Commit)).Keeps I := by
  have hlisting : (discover watermark false : Action ρ (List Commit)).Keeps I :=
    discover_false_keeps h (fun _ => trivial) (fun _ _ => trivial) watermark
  cases checkout with
  | false => exact hlisting
  | true => exact (h.checkout trivial).bind fun _ => hlisting

theorem Report.about_keeps (h : History.Keeps (fun _ => True) I) (mail : Correspondence)
    (commit : Commit) : (Report.about mail commit : Action ρ Report).Keeps I := by
  have hbase : (Commit.patchBase commit.hash : Action ρ (Option String)).Keeps I := by
    refine (h.parent trivial).tryCatch fun e => ?_
    split
    next => exact .pure _
    next => exact .throw _
  exact (h.whatChanged trivial).bind fun _ => hbase.bind fun _ =>
    (h.diff trivial).bind fun _ => .pure _

/-- Reporting on a line does to the history and to the files what its questions do, and what its
deliveries do if there are any. -/
theorem advance_keeps {J : ρ × κ → Files → Prop} {dryRun : Bool}
    (h : ∀ sink, History.Keeps (fun _ => True) fun r d => J (r, sink) d)
    (hdeliver : dryRun = false → ∀ r commit message,
      (Sink.deliver commit message : Action κ Unit).Keeps fun sink d => J (r, sink) d)
    (settings : Settings) (watermark : Commit) :
    (advance settings dryRun watermark : Action (ρ × κ) Advance).Keeps J := by
  refine Action.Keeps.bind (.onFirst fun sink => discover_keeps (h sink) _ _) fun commits => ?_
  -- Each commit is asked about, and its report is handed to the sink.
  refine (Action.Keeps.forM (fun commit => ?_) commits).bind fun _ => .pure _
  rw [dispatchCommit_eq]
  refine (Action.Keeps.onFirst fun sink => Report.about_keeps (h sink) _ _).bind fun report => ?_
  cases dryRun with
  | true => exact (Action.Keeps.say _).bind fun _ => .say _
  | false => exact (Action.Keeps.say _).bind fun _ => .onSecond fun r => hdeliver rfl r _ _

/-! ## Saving -/

/-- Saving the watermarks is replacing the state file. -/
theorem Watermarks.perform_save {ρ : Type} (path : String) (watermarks : List Commit)
    (site : Site ρ) : (Watermarks.save path watermarks).perform site =
      match site.files.replace path (render watermarks).toUTF8 with
      | (.error (place, e), files) => (.error (.inaccessible place e), { site with files })
      | (.ok (), files) => (.ok (), { site with
          files, notes := site.notes ++
            [.record .debug s!"saved {watermarks.length} watermark(s) to {path}"] }) := by
  simp only [save, Action.perform_bind, Action.perform_files, Action.perform_setFiles]
  rcases hreplace : site.files.replace path (render watermarks).toUTF8 with
    ⟨⟨place, e⟩ | ⟨⟨⟩⟩, files⟩ <;> simp [Action.debug]

/-- Watermarks that are saved have replaced the state file. -/
theorem Watermarks.replace_of_save {ρ : Type} {path : String} {watermarks : List Commit}
    {site after : Site ρ} (h : (Watermarks.save path watermarks).perform site = (.ok (), after)) :
    site.files.replace path (render watermarks).toUTF8 = (.ok (), after.files) ∧
      after.resource = site.resource := by
  rw [perform_save] at h
  split at h
  next => cases h
  next files hreplace =>
    cases h
    exact ⟨hreplace, rfl⟩

/-- Watermarks are saved if the state file can be replaced. -/
theorem Watermarks.exists_save {ρ : Type} {path : String} {watermarks : List Commit}
    {site : Site ρ} {files : Files}
    (h : site.files.replace path (render watermarks).toUTF8 = (.ok (), files)) :
    ∃ after, (Watermarks.save path watermarks).perform site = (.ok (), after) ∧
      after.resource = site.resource ∧ after.files = files := by
  rw [perform_save, h]
  exact ⟨_, rfl, rfl, rfl⟩

/-- Saving the watermarks fails only as a whole. -/
theorem Watermarks.save_error {ρ : Type} {path : String} {watermarks : List Commit}
    {site after : Site ρ} {e : Failure}
    (h : (Watermarks.save path watermarks).perform site = (.error e, after)) :
    after.resource = site.resource ∧ after.files = site.files := by
  rw [perform_save] at h
  split at h
  next place cause files hreplace =>
    cases h
    exact ⟨rfl, Files.replace_error hreplace⟩
  next => cases h

/-- Unless it saves the watermarks, the end of a run changes nothing. -/
theorem conclude_unsaved {ρ : Type} {settings : Settings} {dryRun : Bool} {advances : List Advance}
    {site after : Site ρ} {result : Except Failure Summary}
    (h : (conclude settings dryRun advances).perform site = (result, after))
    (hunsaved : dryRun = true ∨ ∃ e, result = .error e) :
    after.resource = site.resource ∧ after.files = site.files := by
  unfold conclude at h
  split at h
  next =>
    simp only [Action.info, Action.perform_bind, Action.perform_say] at h
    cases h
    exact ⟨rfl, rfl⟩
  next hnotDry =>
    obtain hdry | ⟨e, rfl⟩ := hunsaved
    · exact absurd hdry hnotDry
    · rw [Action.perform_bind_eq_error] at h
      rcases h with h | ⟨_, _, _, h⟩
      · exact Watermarks.save_error h
      · cases h

/-- A run ends well if it is a dry one, or if the state file can be replaced. -/
theorem exists_conclude {ρ : Type} (settings : Settings) (dryRun : Bool) (advances : List Advance)
    (site : Site ρ) {files : Files}
    (hfiles : if dryRun then files = site.files else site.files.replace settings.stateFile
      (Watermarks.render (advances.map (·.current))).toUTF8 = (.ok (), files)) :
    ∃ after, (conclude settings dryRun advances).perform site =
        (.ok { branches := advances.map (·.summary), persisted := !dryRun }, after) ∧
      after.resource = site.resource ∧ after.files = files := by
  cases dryRun with
  | true => exact ⟨_, rfl, rfl, hfiles.symm⟩
  | false =>
    obtain ⟨after, hsave, hresource, hafter⟩ := Watermarks.exists_save hfiles
    exact ⟨after, Action.perform_bind_eq_ok.mpr ⟨(), after, hsave, rfl⟩, hresource, hafter⟩

/-! ## Whole runs -/

/-- A run that fails or is a dry one keeps whatever its questions keep and, if it is not a dry one,
its deliveries. -/
theorem run_keeps_of_deliver {J : ρ × κ → Files → Prop}
    (hhistory : ∀ sink, History.Keeps (fun _ => True) fun r d => J (r, sink) d)
    {settings : Settings} {options : RunOptions} {site after : Site (ρ × κ)}
    (hdeliver : options.dryRun = false → ∀ r commit message,
      (Sink.deliver commit message : Action κ Unit).Keeps fun sink d => J (r, sink) d)
    {result : Except Failure Summary} (h : (run settings options).perform site = (result, after))
    (hunsaved : options.dryRun = true ∨ ∃ e, result = .error e)
    (hsite : J site.resource site.files) : J after.resource after.files := by
  have hprepare : (Action.onFirst (prepare settings options) : Action (ρ × κ) _).Keeps J :=
    .onFirst fun sink => prepare_keeps (fun q _ => hhistory sink q trivial) settings options
  have hadvances : ∀ watermarks : List Commit,
      (watermarks.mapM (advance settings options.dryRun) : Action (ρ × κ) _).Keeps J :=
    .mapM fun watermark => advance_keeps hhistory hdeliver settings watermark
  unfold run at h
  rw [Action.perform_bind] at h
  -- The run may end after each of its three parts; the property holds after each.
  have hloaded := hprepare site hsite
  rcases hp : (Action.onFirst (prepare settings options) : Action (ρ × κ) _).perform site with
    ⟨⟨e⟩ | ⟨watermarks⟩, loaded⟩ <;> rw [hp] at h hloaded
  · cases h
    exact hloaded
  · simp only [Action.perform_bind] at h
    have hreported := hadvances watermarks loaded hloaded
    rcases ha : (watermarks.mapM (advance settings options.dryRun) : Action (ρ × κ) _).perform loaded
      with ⟨⟨e⟩ | ⟨advances⟩, reported⟩ <;> rw [ha] at h hreported
    · cases h
      exact hreported
    · obtain ⟨hresource, hfiles⟩ := conclude_unsaved h hunsaved
      rw [hresource, hfiles]
      exact hreported

/-- A run that fails or is a dry one keeps whatever its questions and deliveries keep. -/
theorem run_keeps {J : ρ × κ → Files → Prop}
    (hhistory : ∀ sink, History.Keeps (fun _ => True) fun r d => J (r, sink) d)
    (hdeliver : ∀ r commit message,
      (Sink.deliver commit message : Action κ Unit).Keeps fun sink d => J (r, sink) d)
    {settings : Settings} {options : RunOptions} {site after : Site (ρ × κ)}
    {result : Except Failure Summary} (h : (run settings options).perform site = (result, after))
    (hunsaved : options.dryRun = true ∨ ∃ e, result = .error e)
    (hsite : J site.resource site.files) : J after.resource after.files :=
  run_keeps_of_deliver hhistory (fun _ => hdeliver) h hunsaved hsite

/-- A dry run keeps whatever its questions keep. -/
theorem dryRun_keeps {J : ρ × κ → Files → Prop}
    (hhistory : ∀ sink, History.Keeps (fun _ => True) fun r d => J (r, sink) d)
    {settings : Settings} {options : RunOptions} (hdry : options.dryRun = true) :
    (run settings options : Action (ρ × κ) Summary).Keeps J :=
  fun _ hsite => run_keeps_of_deliver hhistory (fun hreal => nomatch hdry.symm.trans hreal) rfl
    (.inl hdry) hsite

end CommitReports
