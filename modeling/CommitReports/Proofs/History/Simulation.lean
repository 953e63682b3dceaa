import CommitReports.Proofs.Action.Simulation
import CommitReports.Proofs.Report.Compose
import CommitReports.Run

/-!
# Histories side by side

Two histories simulate each other under a relation of sites if each question to the one
simulates the same question to the other (`History.Simulates`). Then so does all that a
run asks of them: looking up names, loading the watermarks (`prepare_simulates`),
discovering commits (`discover_simulates`) and composing reports
(`Report.about_simulates`). A history whose answers do not depend on the notes
(`History.Oblivious`) simulates itself on sites that differ in their notes.

For the reports it is enough that the two concur on single commits (`History.Concurs`):
the files may differ then, and what is done to them.
-/

namespace CommitReports

variable {ρ σ : Type} [History ρ] [History σ] {R : Site ρ → Site σ → Prop}

/-- From related sites, both histories give the same answers on single commits, and related sites are
left behind by each such question and by each note. -/
structure History.Concurs (R : Site ρ → Site σ → Prop) : Prop where
  say : ∀ note, (Action.say note : Action ρ Unit).Simulates R (Action.say note)
  resolve : ∀ revision,
    (History.resolve revision : Action ρ String).Simulates R (History.resolve revision)
  parent : ∀ commit,
    (History.parent commit : Action ρ (Option String)).Simulates R (History.parent commit)
  whatChanged : ∀ commit,
    (History.whatChanged commit : Action ρ String).Simulates R (History.whatChanged commit)
  diff : ∀ base tip, (History.diff base tip : Action ρ String).Simulates R (History.diff base tip)

/-- From related sites, both histories give the same answers, and related sites are left behind by
each question, by each note, and by reading and writing files. -/
structure History.Simulates (R : Site ρ → Site σ → Prop) : Prop extends History.Concurs R where
  files : (Action.files : Action ρ Files).Simulates R Action.files
  setFiles : ∀ files, (Action.setFiles files : Action ρ Unit).Simulates R (Action.setFiles files)
  commitsBetween : ∀ since upto,
    (History.commitsBetween since upto : Action ρ (List String)).Simulates R
      (History.commitsBetween since upto)
  hasLocalBranch : ∀ name,
    (History.hasLocalBranch name : Action ρ Bool).Simulates R (History.hasLocalBranch name)
  checkout : ∀ branch,
    (History.checkout branch : Action ρ Unit).Simulates R (History.checkout branch)
  refresh : (History.refresh : Action ρ Unit).Simulates R History.refresh

/-- A history simulates itself from one and the same site. -/
theorem History.Simulates.refl :
    History.Simulates fun (site : Site ρ) (site' : Site ρ) => site' = site where
  say _ := .refl _
  files := .refl _
  setFiles _ := .refl _
  resolve _ := .refl _
  commitsBetween _ _ := .refl _
  parent _ := .refl _
  whatChanged _ := .refl _
  diff _ _ := .refl _
  hasLocalBranch _ := .refl _
  checkout _ := .refl _
  refresh := .refl _

/-- No answer of the history depends on the notes. -/
structure History.Oblivious (ρ : Type) [History ρ] : Prop where
  resolve : ∀ revision, (History.resolve revision : Action ρ String).Oblivious
  commitsBetween : ∀ since upto,
    (History.commitsBetween since upto : Action ρ (List String)).Oblivious
  parent : ∀ commit, (History.parent commit : Action ρ (Option String)).Oblivious
  whatChanged : ∀ commit, (History.whatChanged commit : Action ρ String).Oblivious
  diff : ∀ base tip, (History.diff base tip : Action ρ String).Oblivious
  hasLocalBranch : ∀ name, (History.hasLocalBranch name : Action ρ Bool).Oblivious
  checkout : ∀ branch, (History.checkout branch : Action ρ Unit).Oblivious
  refresh : (History.refresh : Action ρ Unit).Oblivious

/-- A history simulates itself under a relation that all oblivious actions keep. -/
theorem History.Oblivious.simulates {R : Site ρ → Site ρ → Prop} (h : History.Oblivious ρ)
    (hR : ∀ {α : Type} {act : Action ρ α}, act.Oblivious → act.Simulates R act) :
    History.Simulates R where
  say note := hR (.say note)
  files := hR .files
  setFiles files := hR (.setFiles files)
  resolve revision := hR (h.resolve revision)
  commitsBetween since upto := hR (h.commitsBetween since upto)
  parent commit := hR (h.parent commit)
  whatChanged commit := hR (h.whatChanged commit)
  diff base tip := hR (h.diff base tip)
  hasLocalBranch name := hR (h.hasLocalBranch name)
  checkout branch := hR (h.checkout branch)
  refresh := hR h.refresh

/-! ## What a run asks -/

theorem Revision.lookup_simulates (h : History.Concurs R) (name : String) :
    (Revision.lookup name : Action ρ Revision).Simulates R (Revision.lookup name) :=
  ((h.resolve name).bind fun _ => .pure _).bind fun _ => .pure _

theorem Branch.lookup_simulates (h : History.Concurs R) (name : String) :
    (Branch.lookup name : Action ρ Branch).Simulates R (Branch.lookup name) :=
  (Revision.lookup_simulates h name).bind fun _ => .pure _

theorem Branch.lookupLocal_simulates (h : History.Simulates R) (name : String) :
    (Branch.lookupLocal name : Action ρ Branch).Simulates R (Branch.lookupLocal name) := by
  refine (Branch.lookup_simulates h.toConcurs name).bind fun branch => ?_
  refine (h.hasLocalBranch name).bind fun isLocal => ?_
  cases isLocal with
  | true => exact .pure _
  | false => exact .throw _

theorem Commit.lookup_simulates (h : History.Concurs R) (hash : String) (branch : Branch) :
    (Commit.lookup hash branch : Action ρ Commit).Simulates R (Commit.lookup hash branch) :=
  (Revision.lookup_simulates h hash).bind fun _ => .pure _

namespace Watermarks

theorem verified_simulates (h : History.Simulates R) (localOnly : Bool) (branch hash : String) :
    (verified localOnly branch hash : Action ρ Commit).Simulates R
      (verified localOnly branch hash) := by
  cases localOnly with
  | false =>
    exact (Branch.lookup_simulates h.toConcurs branch).bind (Commit.lookup_simulates h.toConcurs hash)
  | true =>
    exact (Branch.lookupLocal_simulates h branch).bind (Commit.lookup_simulates h.toConcurs hash)

theorem readLines_simulates (h : History.Simulates R) (path : String) (localOnly : Bool) :
    ∀ (lines : List String) (number : Nat),
      (readLines path localOnly number lines : Action ρ (List Commit)).Simulates R
        (readLines path localOnly number lines) := by
  intro lines
  induction lines with
  | nil => exact fun _ => .pure _
  | cons line rest ih =>
    intro number
    rw [readLines, readLines]
    split
    next => exact ih _
    next => exact .throw _
    next branch hash _ =>
      exact (verified_simulates h localOnly branch hash).bind fun _ => (ih _).bind fun _ => .pure _

theorem load_simulates (h : History.Simulates R) (path : String) (localOnly : Bool) :
    (load path localOnly : Action ρ (List Commit)).Simulates R (load path localOnly) := by
  refine h.files.bind fun files => ?_
  split
  next => exact .throw _
  next text _ =>
    exact (readLines_simulates h path localOnly _ _).bind fun _ => (h.say _).bind fun _ => .pure _

end Watermarks

/-- Whether a run is a dry one does not matter up to the loaded watermarks. -/
theorem prepare_simulates (h : History.Simulates R) (settings : Settings)
    {options options' : RunOptions} (hrefresh : options'.refresh = options.refresh) :
    (prepare settings options : Action ρ (List Commit)).Simulates R (prepare settings options') := by
  have hload := Watermarks.load_simulates h settings.stateFile settings.checkoutBranches
  unfold prepare
  rw [hrefresh]
  split
  next => exact (h.say _).bind fun _ => h.refresh.bind fun _ => hload
  next => exact hload

theorem discover_simulates (h : History.Simulates R) (watermark : Commit) (checkout : Bool) :
    (discover watermark checkout : Action ρ (List Commit)).Simulates R
      (discover watermark checkout) := by
  have hnew : (watermark.newCommitsSince watermark.branch : Action ρ (List Commit)).Simulates R
      (watermark.newCommitsSince watermark.branch) :=
    (h.commitsBetween _ _).bind fun hashes =>
      .mapM (fun hash => Commit.lookup_simulates h.toConcurs hash watermark.branch) hashes
  have hlisted := hnew.bind fun newest =>
    (h.say (.record .debug s!"{watermark.branch.name}: {newest.reverse.length} new commit(s) since {watermark.hash}")).bind
      fun _ => .pure newest.reverse
  cases checkout with
  | false => exact hlisted
  | true => exact (h.checkout _).bind fun _ => hlisted

theorem Report.about_simulates (h : History.Concurs R) (mail : Correspondence) (commit : Commit) :
    (Report.about mail commit : Action ρ Report).Simulates R (Report.about mail commit) := by
  have hbase : (Commit.patchBase commit.hash : Action ρ (Option String)).Simulates R
      (Commit.patchBase commit.hash) := by
    refine (h.parent _).tryCatch fun e => ?_
    split
    next => exact .pure _
    next => exact .throw _
  exact (h.whatChanged _).bind fun _ => hbase.bind fun _ => (h.diff _ _).bind fun _ => .pure _

end CommitReports
