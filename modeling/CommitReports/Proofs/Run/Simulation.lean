import CommitReports.Proofs.History.Logged
import CommitReports.Proofs.Run.Questions

/-!
# Runs side by side

Two runs simulate each other if their histories do, and their deliveries keep the
pairs of a history and a sink related (`run_simulates`). So watching a history changes nothing: a run over a
logged history is the run over the history itself (`Logged.perform_run`).
-/

namespace CommitReports

variable {ρ σ : Type} [History ρ] [History σ]

/-! ## The end of a run -/

theorem conclude_simulates {R : Site ρ → Site σ → Prop} (h : History.Simulates R)
    (settings : Settings) (dryRun : Bool) (advances : List Advance) :
    (conclude settings dryRun advances : Action ρ Summary).Simulates R
      (conclude settings dryRun advances) := by
  have hsave : ∀ watermarks,
      (Watermarks.save settings.stateFile watermarks : Action ρ Unit).Simulates R
        (Watermarks.save settings.stateFile watermarks) := by
    intro watermarks
    refine h.files.bind fun files => ?_
    refine (h.setFiles _).bind fun _ => ?_
    split
    next => exact .throw _
    next => exact h.say _
  cases dryRun with
  | true => exact (h.say _).bind fun _ => .pure _
  | false => exact (hsave _).bind fun _ => .pure _

omit [History ρ] in
/-- The end of a run has nothing to do with the sink. -/
theorem onFirst_conclude {κ : Type} (settings : Settings) (dryRun : Bool) (advances : List Advance) :
    (Action.onFirst (conclude settings dryRun advances) : Action (ρ × κ) Summary) =
      conclude settings dryRun advances := by
  funext site
  cases dryRun with
  | true => rfl
  | false =>
    show (Action.onFirst (conclude settings false advances) : Action (ρ × κ) Summary).perform site =
      (conclude settings false advances).perform site
    simp only [conclude, Action.perform_onFirst, Bool.false_eq_true, if_false, Action.perform_bind,
      Watermarks.perform_save]
    rcases hreplace : site.files.replace settings.stateFile
      (Watermarks.render (advances.map (·.current))).toUTF8 with ⟨⟨place, e⟩ | ⟨⟨⟩⟩, files⟩ <;>
      simp only [hreplace, Action.perform_pure]

/-! ## Whole runs -/

section Runs

variable {κ υ : Type} [Sink κ] [Sink υ] {R : Site ρ → Site σ → Prop} {S : κ → υ → Prop}
  (hdeliver : ∀ commit message, (Action.onSecond (Sink.deliver commit message) :
    Action (ρ × κ) Unit).Simulates (Site.Paired R S) (Action.onSecond (Sink.deliver commit message)))

include hdeliver

theorem dispatch_simulates (h : History.Concurs R) (mail : Correspondence) (dryRun : Bool)
    (commit : Commit) :
    (dispatchCommit mail dryRun commit : Action (ρ × κ) Unit).Simulates (Site.Paired R S)
      (dispatchCommit mail dryRun commit) := by
  have hsay : ∀ note, (Action.say note : Action (ρ × κ) Unit).Simulates (Site.Paired R S)
      (Action.say note) := fun note => .paired (h.say note)
  rw [dispatchCommit_eq, dispatchCommit_eq]
  refine Action.Simulates.bind (.paired (Report.about_simulates h mail commit)) fun report => ?_
  cases dryRun with
  | true => exact (hsay _).bind fun _ => hsay _
  | false => exact (hsay _).bind fun _ => hdeliver _ _

/-- Runs over histories that simulate each other, with sinks that do, simulate each other. -/
theorem run_simulates (h : History.Simulates R) (settings : Settings) (options : RunOptions) :
    (run settings options : Action (ρ × κ) Summary).Simulates (Site.Paired R S)
      (run settings options) := by
  have hadvance : ∀ watermark,
      (advance settings options.dryRun watermark : Action (ρ × κ) Advance).Simulates
        (Site.Paired R S) (advance settings options.dryRun watermark) := fun watermark =>
    Action.Simulates.bind (.paired (discover_simulates h _ _)) fun commits =>
      (Action.Simulates.forM (dispatch_simulates hdeliver h.toConcurs _ _) commits).bind fun _ => .pure _
  unfold run
  refine Action.Simulates.bind (.paired (prepare_simulates h settings rfl)) fun watermarks => ?_
  refine (Action.Simulates.mapM hadvance watermarks).bind fun advances => ?_
  rw [← onFirst_conclude, ← onFirst_conclude]
  exact .paired (conclude_simulates h settings _ advances)

end Runs

/-! ## Sinks that hold more -/

/-- The same site with the part of its sink that delivers. -/
def Site.withPart {ρ κ υ : Type} (part : υ → κ) (site : Site (ρ × υ)) : Site (ρ × κ) :=
  { site with resource := (site.resource.1, part site.resource.2) }

/-- A sink that does no more than a part of it does is as good as this part: what it holds besides
changes nothing in a run. -/
theorem perform_run_withPart {κ υ : Type} [Sink κ] [Sink υ] (part : υ → κ)
    (hdeliver : ∀ commit message (site : Site υ),
      (Sink.deliver commit message : Action κ Unit).perform
          { site with resource := part site.resource } =
        (((Sink.deliver commit message : Action υ Unit).perform site).1,
          { ((Sink.deliver commit message : Action υ Unit).perform site).2 with
            resource := part ((Sink.deliver commit message : Action υ Unit).perform site).2.resource }))
    (settings : Settings) (options : RunOptions) (site : Site (ρ × υ)) :
    (run settings options).perform (site.withPart part) =
      (((run settings options).perform site).1,
        ((run settings options).perform site).2.withPart part) := by
  have hpaired : ∀ {site : Site (ρ × υ)} {plain : Site (ρ × κ)},
      Site.Paired (fun site plain => plain = site) (fun whole sink => sink = part whole) site plain ↔
        plain = site.withPart part := by
    rintro ⟨⟨history, whole⟩, files, notes⟩ ⟨⟨history', sink⟩, files', notes'⟩
    simp only [Site.Paired, Site.withPart, Site.mk.injEq, Prod.mk.injEq]
    tauto
  have hsecond : ∀ commit message,
      (Action.onSecond (Sink.deliver commit message) : Action (ρ × υ) Unit).Simulates
        (Site.Paired (fun site plain => plain = site) fun whole sink => sink = part whole)
        (Action.onSecond (Sink.deliver commit message) : Action (ρ × κ) Unit) := by
    intro commit message site plain hplain
    rw [hpaired] at hplain ⊢
    subst hplain
    have hpart := hdeliver commit message { site with resource := site.resource.2 }
    simp only [Action.perform_onSecond, Site.withPart, hpart]
    exact ⟨trivial, trivial⟩
  have hrun := run_simulates hsecond .refl settings options site (site.withPart part)
    (hpaired.mpr rfl)
  exact Prod.ext hrun.1.symm (hpaired.mp hrun.2)

/-! ## Histories that are watched -/

namespace Logged

/-- The same site without the list of questions, for a history beside a sink. -/
def forgetFirst {κ : Type} (site : Site (Logged ρ × κ)) : Site (ρ × κ) :=
  { site with resource := (site.resource.1.history, site.resource.2) }

omit [History ρ] in
theorem paired_iff {κ : Type} {site : Site (Logged ρ × κ)} {plain : Site (ρ × κ)} :
    Site.Paired (fun site plain => plain = forget site) (fun sink sink' => sink' = sink) site plain ↔
      plain = forgetFirst site := by
  obtain ⟨⟨logged, sink⟩, files, notes⟩ := site
  obtain ⟨⟨history, sink'⟩, files', notes'⟩ := plain
  simp only [Site.Paired, forget, forgetFirst, Site.mk.injEq, Prod.mk.injEq]
  tauto

/-- Watching a history changes nothing in a run. -/
theorem perform_run {κ : Type} [Sink κ] (settings : Settings) (options : RunOptions)
    (site : Site (Logged ρ × κ)) :
    (run settings options).perform (forgetFirst site) =
      (((run settings options).perform site).1,
        forgetFirst ((run settings options).perform site).2) := by
  have hdeliver : ∀ commit message,
      (Action.onSecond (Sink.deliver commit message) : Action (Logged ρ × κ) Unit).Simulates
        (Site.Paired (fun site plain => plain = forget site) fun sink sink' => sink' = sink)
        (Action.onSecond (Sink.deliver commit message) : Action (ρ × κ) Unit) := by
    intro commit message site plain hplain
    rw [paired_iff] at hplain ⊢
    subst hplain
    exact ⟨rfl, rfl⟩
  have hrun := run_simulates hdeliver simulates settings options site (forgetFirst site)
    (paired_iff.mpr rfl)
  exact Prod.ext hrun.1.symm (paired_iff.mp hrun.2)

end Logged

end CommitReports
