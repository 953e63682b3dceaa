import CommitReports.Proofs.History.Answers
import CommitReports.Proofs.Watermarks.Marks

/-!
# Loading, as it follows from the answers

Loading asks a history two kinds of questions only: what names stand for, and which
names are those of local branches. Where the answers to these are settled
(`Names.Hold`), so is the outcome of loading, faults included (`Names.Hold.load`).

Which files are accepted is then known in full: those of which each line is blank or
has two fields that verify (`Names.Accepts`). The watermarks are those that the lines
name, in order (`Names.readLines_eq_ok_iff`). Where it is known that all the hashes
resolve, what is left to fail are the branches (`Names.loaded_of_resolve`).
-/

namespace CommitReports

/-- What a history answers on names. -/
structure Names where
  resolve : (revision : String) → Except Failure String
  hasLocalBranch : (name : String) → Except Failure Bool

/-- What a history answers on names, among its other answers. -/
def Answers.names (answers : Answers) : Names :=
  { resolve := answers.resolve, hasLocalBranch := answers.hasLocalBranch }

namespace Names

/-! ## The answers alone -/

/-- The branch of a name, if it is accepted. -/
def branch (names : Names) (localOnly : Bool) (name : String) : Except Failure Branch := do
  let _ ← names.resolve name
  if localOnly then
    let isLocal ← names.hasLocalBranch name
    if isLocal then return ⟨⟨name⟩⟩
    else throw (.unresolvable (name ++ " (not a local branch)"))
  else return ⟨⟨name⟩⟩

/-- The watermark of a branch and a hash, if both are accepted. -/
def verified (names : Names) (localOnly : Bool) (branch hash : String) : Except Failure Commit := do
  let branch ← names.branch localOnly branch
  let _ ← names.resolve hash
  return { hash, branch }

/-- The watermarks of some lines, the first of which has the given number. -/
def readLines (names : Names) (path : String) (localOnly : Bool) :
    (number : Nat) → List String → Except Failure (List Commit)
  | _, [] => .ok []
  | number, line :: rest =>
    match Watermarks.Line.read line with
    | .blank => names.readLines path localOnly (number + 1) rest
    | .malformed => .error (.malformedLine path number line)
    | .mark branch hash => do
      let watermark ← names.verified localOnly branch hash
      let more ← names.readLines path localOnly (number + 1) rest
      return watermark :: more

/-- The watermarks of a state file, from what reading it gives. -/
def loaded (names : Names) (path : String) (localOnly : Bool) :
    (read : Except SystemError String) → Except Failure (List Commit)
  | .ok text => names.readLines path localOnly 1 (Text.linesOf text)
  | .error e => .error (.inaccessible path e)

/-! ## What is accepted -/

/-- A branch and a hash verify: both names resolve and, if that is asked for, the branch is local. -/
structure Verifies (names : Names) (localOnly : Bool) (m : String × String) : Prop where
  branch : ∃ target, names.resolve m.1 = .ok target
  isLocal : localOnly = true → names.hasLocalBranch m.1 = .ok true
  hash : ∃ target, names.resolve m.2 = .ok target

/-- A line is accepted if it is blank, or names a branch and a hash that verify. -/
def Accepts (names : Names) (localOnly : Bool) (line : String) : Prop :=
  match Watermarks.Line.read line with
  | .blank => True
  | .mark branch hash => names.Verifies localOnly (branch, hash)
  | .malformed => False

variable {names : Names} {localOnly : Bool}

theorem Accepts.ne_malformed {line : String} (h : names.Accepts localOnly line) :
    Watermarks.Line.read line ≠ .malformed := by
  intro hread
  rw [Accepts, hread] at h
  exact h

theorem branch_eq_ok_iff {name : String} {found : Branch} :
    names.branch localOnly name = .ok found ↔
      (∃ target, names.resolve name = .ok target) ∧
      (localOnly = true → names.hasLocalBranch name = .ok true) ∧ found = ⟨⟨name⟩⟩ := by
  rw [branch, Answers.bind_eq_ok, exists_and_right]
  refine and_congr_right fun _ => ?_
  cases localOnly with
  | false => simpa [pure, Except.pure] using eq_comm
  | true =>
    rw [if_pos rfl, Answers.bind_eq_ok]
    constructor
    · rintro ⟨isLocal, hlocal, hfound⟩
      cases isLocal with
      | true =>
        cases hfound
        exact ⟨fun _ => hlocal, rfl⟩
      | false => cases hfound
    · rintro ⟨hlocal, rfl⟩
      exact ⟨true, hlocal rfl, rfl⟩

theorem verified_eq_ok_iff {branch hash : String} {watermark : Commit} :
    names.verified localOnly branch hash = .ok watermark ↔
      names.Verifies localOnly (branch, hash) ∧ watermark = Watermarks.ofMark (branch, hash) := by
  rw [verified, Answers.bind_eq_ok]
  constructor
  · rintro ⟨found, hbranch, hrest⟩
    obtain ⟨htarget, hlocal, rfl⟩ := branch_eq_ok_iff.mp hbranch
    obtain ⟨target, hhash, hmade⟩ := Answers.bind_eq_ok.mp hrest
    cases hmade
    exact ⟨⟨htarget, hlocal, target, hhash⟩, rfl⟩
  · rintro ⟨⟨htarget, hlocal, target, hhash⟩, rfl⟩
    exact ⟨_, branch_eq_ok_iff.mpr ⟨htarget, hlocal, rfl⟩,
      Answers.bind_eq_ok.mpr ⟨target, hhash, rfl⟩⟩

/-- Lines are read if and only if each of them is accepted, wherever they stand. -/
theorem readLines_eq_ok_iff {path : String} :
    ∀ {lines : List String} {number : Nat} {watermarks : List Commit},
      names.readLines path localOnly number lines = .ok watermarks ↔
        (∀ line ∈ lines, names.Accepts localOnly line) ∧ watermarks =
          (lines.filterMap fun line => (Watermarks.Line.read line).mark?).map Watermarks.ofMark := by
  intro lines
  induction lines with
  | nil => simp [readLines, eq_comm]
  | cons line rest ih =>
    intro number watermarks
    rw [readLines, List.forall_mem_cons, Accepts, List.filterMap_cons]
    cases hread : Watermarks.Line.read line with
    | blank => simpa [Watermarks.Line.mark?] using ih
    | malformed => simp
    | mark branch hash =>
      simp only [Watermarks.Line.mark?, List.map_cons, Answers.bind_eq_ok, verified_eq_ok_iff, ih]
      constructor
      · rintro ⟨_, ⟨hverifies, rfl⟩, _, ⟨hrest, rfl⟩, hmade⟩
        cases hmade
        exact ⟨⟨hverifies, hrest⟩, rfl⟩
      · rintro ⟨⟨hverifies, hrest⟩, rfl⟩
        exact ⟨_, ⟨hverifies, rfl⟩, _, ⟨hrest, rfl⟩, rfl⟩

/-- A state file is loaded if and only if it can be read and each of its lines is accepted. -/
theorem loaded_eq_ok_iff {path : String} {read : Except SystemError String}
    {watermarks : List Commit} :
    names.loaded path localOnly read = .ok watermarks ↔
      ∃ text, read = .ok text ∧ (∀ line ∈ Text.linesOf text, names.Accepts localOnly line) ∧
        watermarks = (Watermarks.marksOf text).map Watermarks.ofMark := by
  cases read with
  | error e => simp [loaded]
  | ok text => simpa [loaded, Watermarks.marksOf] using readLines_eq_ok_iff

/-! ## Where all hashes resolve -/

theorem verified_of_resolve {branch hash : String}
    (hhash : ∃ target, names.resolve hash = .ok target) :
    names.verified localOnly branch hash =
      names.branch localOnly branch >>= fun _ => .ok (Watermarks.ofMark (branch, hash)) := by
  obtain ⟨target, htarget⟩ := hhash
  cases hbranch : names.branch localOnly branch with
  | error e =>
    rw [verified, hbranch]
    rfl
  | ok found =>
    obtain ⟨-, -, rfl⟩ := branch_eq_ok_iff.mp hbranch
    rw [verified, hbranch]
    simp only [bind, Except.bind, htarget]
    rfl

theorem readLines_of_resolve {path : String} : ∀ {lines : List String} (number : Nat),
    (∀ line ∈ lines, Watermarks.Line.read line ≠ .malformed) →
    (∀ m ∈ lines.filterMap fun line => (Watermarks.Line.read line).mark?,
      ∃ target, names.resolve m.2 = .ok target) →
    names.readLines path localOnly number lines =
      ((lines.filterMap fun line => (Watermarks.Line.read line).mark?).map (·.1)).mapM
        (names.branch localOnly) >>= fun _ =>
          .ok ((lines.filterMap fun line => (Watermarks.Line.read line).mark?).map
            Watermarks.ofMark) := by
  intro lines
  induction lines with
  | nil => exact fun _ _ _ => rfl
  | cons line rest ih =>
    intro number hwell hresolve
    obtain ⟨hline, hrest⟩ := List.forall_mem_cons.mp hwell
    rw [List.filterMap_cons] at hresolve ⊢
    rw [readLines]
    cases hread : Watermarks.Line.read line with
    | blank =>
      rw [hread] at hresolve
      exact ih (number + 1) hrest hresolve
    | malformed => exact absurd hread hline
    | mark branch hash =>
      rw [hread] at hresolve
      obtain ⟨hhash, hmore⟩ := List.forall_mem_cons.mp hresolve
      simp only [Watermarks.Line.mark?, List.map_cons, List.mapM_cons, bind_assoc]
      rw [verified_of_resolve hhash, ih (number + 1) hrest hmore]
      simp only [bind_assoc]
      rfl

/-- Where all hashes resolve, it is only the branches that decide whether a file is loaded. -/
theorem loaded_of_resolve {path text : String}
    (hwell : ∀ line ∈ Text.linesOf text, Watermarks.Line.read line ≠ .malformed)
    (hresolve : ∀ m ∈ Watermarks.marksOf text, ∃ target, names.resolve m.2 = .ok target) :
    names.loaded path localOnly (.ok text) =
      ((Watermarks.marksOf text).map (·.1)).mapM (names.branch localOnly) >>= fun _ =>
        .ok ((Watermarks.marksOf text).map Watermarks.ofMark) :=
  readLines_of_resolve 1 hwell hresolve

/-! ## Histories that give these answers -/

/-- Wherever the property holds, the history answers so on names, and keeps the property. -/
structure Hold {ρ : Type} [History ρ] (names : Names) (I : ρ → Files → Prop) : Prop where
  resolve : ∀ revision,
    (History.resolve revision : Action ρ String).Settled I (names.resolve revision)
  hasLocalBranch : ∀ name,
    (History.hasLocalBranch name : Action ρ Bool).Settled I (names.hasLocalBranch name)

variable {ρ : Type} [History ρ] {I : ρ → Files → Prop}

theorem Hold.lookup_revision (h : names.Hold I) (name : String) :
    (Revision.lookup name : Action ρ Revision).Settled I
      (names.resolve name >>= fun _ => pure ⟨name⟩) := by
  have hverify : (Revision.verify ⟨name⟩ : Action ρ Unit).Settled I
      (names.resolve name >>= fun _ => pure ()) := (h.resolve name).bind fun _ => .pure _
  have hlookup := hverify.bind fun _ => Action.Settled.pure (I := I) (Revision.mk name)
  rwa [bind_assoc] at hlookup

theorem Hold.lookup_commit (h : names.Hold I) (hash : String) (branch : Branch) :
    (Commit.lookup hash branch : Action ρ Commit).Settled I
      (names.resolve hash >>= fun _ => pure { hash, branch }) := by
  have hlookup := (h.lookup_revision hash).bind fun revision =>
    Action.Settled.pure (I := I) ({ hash := revision.name, branch } : Commit)
  rwa [bind_assoc] at hlookup

theorem Hold.lookup_branch (h : names.Hold I) (name : String) :
    (Branch.lookup name : Action ρ Branch).Settled I (names.branch false name) := by
  have hlookup := (h.lookup_revision name).bind fun revision =>
    Action.Settled.pure (I := I) (Branch.mk revision)
  rwa [bind_assoc] at hlookup

theorem Hold.lookup_localBranch (h : names.Hold I) (name : String) :
    (Branch.lookupLocal name : Action ρ Branch).Settled I (names.branch true name) := by
  have hlocal : ∀ branch : Branch, (do
      let isLocal : Bool ← History.hasLocalBranch name
      if isLocal then return branch
      else throw (.unresolvable (name ++ " (not a local branch)")) : Action ρ Branch).Settled I (do
        let isLocal ← names.hasLocalBranch name
        if isLocal then return branch
        else throw (.unresolvable (name ++ " (not a local branch)"))) := by
    intro branch
    refine (h.hasLocalBranch name).bind fun isLocal => ?_
    cases isLocal with
    | true => exact .pure _
    | false => exact .throw _
  have hlookup := (h.lookup_branch name).bind hlocal
  rwa [branch, if_neg Bool.false_ne_true, bind_assoc] at hlookup

theorem Hold.verified (h : names.Hold I) (localOnly : Bool) (branch hash : String) :
    (Watermarks.verified localOnly branch hash : Action ρ Commit).Settled I
      (names.verified localOnly branch hash) := by
  cases localOnly with
  | false => exact (h.lookup_branch branch).bind fun branch => h.lookup_commit hash branch
  | true => exact (h.lookup_localBranch branch).bind fun branch => h.lookup_commit hash branch

theorem Hold.readLines (h : names.Hold I) (path : String) (localOnly : Bool) :
    ∀ (lines : List String) (number : Nat),
      (Watermarks.readLines path localOnly number lines : Action ρ (List Commit)).Settled I
        (names.readLines path localOnly number lines) := by
  intro lines
  induction lines with
  | nil => exact fun _ => .pure _
  | cons line rest ih =>
    intro number
    rw [Watermarks.readLines, Names.readLines]
    cases Watermarks.Line.read line with
    | blank => exact ih _
    | malformed => exact .throw _
    | mark branch hash =>
      exact (h.verified localOnly branch hash).bind fun _ => (ih _).bind fun _ => .pure _

/-- **What loading gives follows from the answers** and from what the state file holds. -/
theorem Hold.load (h : names.Hold I) (path : String) (localOnly : Bool) (site : Site ρ)
    (hsite : I site.resource site.files) :
    ((Watermarks.load path localOnly).perform site).1 =
        names.loaded path localOnly (site.files.readText path) ∧
      I ((Watermarks.load path localOnly).perform site).2.resource
        ((Watermarks.load path localOnly).perform site).2.files := by
  rw [Watermarks.load, Action.perform_bind, Action.perform_files]
  simp only
  cases site.files.readText path with
  | error e => exact ⟨rfl, hsite⟩
  | ok text =>
    have hread := (h.readLines path localOnly (Text.linesOf text) 1).bind fun watermarks =>
      (Action.Settled.say (.record .debug s!"loaded {watermarks.length} watermark(s) from {path}")).bind
        fun _ => Action.Settled.pure watermarks
    have hsame : (names.readLines path localOnly 1 (Text.linesOf text) >>= fun watermarks =>
        (Except.ok () : Except Failure Unit) >>= fun _ => Except.ok watermarks) =
          names.loaded path localOnly (.ok text) := bind_pure _
    rw [hsame] at hread
    exact hread site hsite

end Names

/-! ## Up to the watermarks of a run -/

namespace Answers

/-- The watermarks that a run starts from, as they follow from the answers and from what reading
the state file gives. -/
def prepared (answers : Answers) (settings : Settings) (options : RunOptions)
    (read : Except SystemError String) : Except Failure (List Commit) := do
  if options.refresh then answers.refresh
  answers.names.loaded settings.stateFile settings.checkoutBranches read

/-- A run has its watermarks if the history could be refreshed, where that was asked for, and the
state file could be loaded. -/
theorem prepared_eq_ok_iff {answers : Answers} {settings : Settings} {options : RunOptions}
    {read : Except SystemError String} {watermarks : List Commit} :
    answers.prepared settings options read = .ok watermarks ↔
      (options.refresh = true → answers.refresh = .ok ()) ∧
      answers.names.loaded settings.stateFile settings.checkoutBranches read = .ok watermarks := by
  unfold prepared
  cases options.refresh with
  | false => simp
  | true =>
    rw [if_pos rfl, bind_eq_ok]
    constructor
    · rintro ⟨⟨⟩, hrefresh, hloaded⟩
      exact ⟨fun _ => hrefresh, hloaded⟩
    · rintro ⟨hrefresh, hloaded⟩
      exact ⟨(), hrefresh rfl, hloaded⟩

variable {ρ : Type} [History ρ] {answers : Answers} {I : ρ → Files → Prop}

/-- A history that holds to all its answers holds to those on names. -/
theorem Hold.names (h : answers.Hold I) : answers.names.Hold I := ⟨h.resolve, h.hasLocalBranch⟩

/-- The watermarks that a run starts from follow from the answers, and from the state file if its
content is known. -/
theorem Hold.prepared (h : answers.Hold I) {settings : Settings} {read : Except SystemError String}
    (options : RunOptions) (hread : ∀ r d, I r d → d.readText settings.stateFile = read) :
    (prepare settings options : Action ρ (List Commit)).Settled I
      (answers.prepared settings options read) := by
  have hload : (Watermarks.load settings.stateFile settings.checkoutBranches :
      Action ρ (List Commit)).Settled I
        (answers.names.loaded settings.stateFile settings.checkoutBranches read) := by
    intro site hsite
    have hloaded := h.names.load settings.stateFile settings.checkoutBranches site hsite
    rwa [hread _ _ hsite] at hloaded
  unfold prepare Answers.prepared
  cases options.refresh with
  | false => exact hload
  | true => exact (Action.Settled.say _).bind fun _ => h.refresh.bind fun _ => hload

end Answers

end CommitReports
