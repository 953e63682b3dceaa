import CommitReports.History.Git
import CommitReports.Proofs.Git.Abbreviation
import CommitReports.Proofs.Git.Branch
import CommitReports.Proofs.Recorded.WellKept
import CommitReports.Proofs.Watermarks.Loading

/-!
# What a watermark stands for

Loading verifies that the hash of each watermark resolves, in the way of any other name.
A text that is the hash of a commit, or the first digits of one, then stands for this
commit wherever the branches are moved (`Watermarks.load_pins`). But the name of a branch
resolves as well, and is accepted in the place of a hash: such a watermark moves with the
branch (`Watermarks.not_pinned_branch`).
-/

namespace CommitReports

variable {ρ : Type} [History ρ]

/-! ## Texts that stand for one commit -/

/-- A text stands for one commit, and still does after any number of moves. -/
def Pins (move : ρ → ρ → Prop) (resource : ρ) (text hash : String) : Prop :=
  ∀ site : Site ρ, Relation.ReflTransGen move resource site.resource →
    ((History.resolve text : Action ρ String).perform site).1 = .ok hash

/-- What each move keeps, and what the text is resolved by, pins it. -/
theorem Pins.of_kept {move : ρ → ρ → Prop} {resource : ρ} {text hash : String} {J : ρ → Prop}
    (hstart : J resource) (hmove : ∀ now later, J now → move now later → J later)
    (hresolve : ∀ site : Site ρ, J site.resource →
      ((History.resolve text : Action ρ String).perform site).1 = .ok hash) :
    Pins move resource text hash := by
  intro site hmoves
  have hkept : ∀ later, Relation.ReflTransGen move resource later → J later := by
    intro later hlater
    induction hlater with
    | refl => exact hstart
    | tail _ hlast ih => exact hmove _ _ ih hlast
  exact hresolve site (hkept _ hmoves)

/-! ## What is loaded -/

namespace Watermarks

variable {I : ρ → Files → Prop} {found : String → Except Failure String}
  (hresolve : ∀ name, (History.resolve name : Action ρ String).Settled I (found name))
  (hlocal : ∀ name, (History.hasLocalBranch name : Action ρ Bool).Keeps I)

include hresolve

/-- The hash of a watermark that is verified resolves. -/
theorem lookup_resolves (hash : String) (branch : Branch) :
    (Commit.lookup hash branch : Action ρ Commit).Yields I fun watermark r d =>
      (∃ target, found watermark.hash = .ok target) ∧ I r d := by
  have hverify : (Revision.verify ⟨hash⟩ : Action ρ Unit).Yields I fun _ r d =>
      (∃ target, found hash = .ok target) ∧ I r d :=
    (hresolve hash).yields.bind fun target => .pure fun _ _ h => ⟨⟨target, h.1⟩, h.2⟩
  have hlookup : (Revision.lookup hash : Action ρ Revision).Yields I fun revision r d =>
      (∃ target, found revision.name = .ok target) ∧ I r d :=
    hverify.bind fun _ => .pure fun _ _ h => h
  exact hlookup.bind fun revision => .pure fun _ _ h => h

include hlocal

theorem verified_resolves (localOnly : Bool) (branch hash : String) :
    (verified localOnly branch hash : Action ρ Commit).Yields I fun watermark r d =>
      (∃ target, found watermark.hash = .ok target) ∧ I r d := by
  have hbranch : (Branch.lookup branch : Action ρ Branch).Keeps I :=
    (((hresolve branch).keeps.bind fun _ => .pure _).bind fun _ => .pure _).bind fun _ => .pure _
  unfold verified
  cases localOnly with
  | false => exact hbranch.yields.bind fun _ => lookup_resolves hresolve hash _
  | true =>
    have hlocalBranch : (Branch.lookupLocal branch : Action ρ Branch).Keeps I := by
      refine hbranch.bind fun _ => (hlocal branch).bind fun isLocal => ?_
      cases isLocal with
      | true => exact .pure _
      | false => exact .throw _
    exact hlocalBranch.yields.bind fun _ => lookup_resolves hresolve hash _

theorem readLines_resolves (path : String) (localOnly : Bool) :
    ∀ (lines : List String) (number : Nat),
      (readLines path localOnly number lines : Action ρ (List Commit)).Yields I
        fun watermarks r d =>
          (∀ watermark ∈ watermarks, ∃ target, found watermark.hash = .ok target) ∧ I r d := by
  intro lines
  induction lines with
  | nil => exact fun _ => .pure fun r d hsite => ⟨nofun, hsite⟩
  | cons line rest ih =>
    intro number
    rw [readLines]
    split
    next => exact ih _
    next => exact .throw _
    next branch hash _ =>
      refine (verified_resolves hresolve hlocal localOnly branch hash).bind fun watermark =>
        .of_fact fun hwatermark => ?_
      refine (ih _).bind fun more => .of_fact fun hmore => ?_
      exact .pure fun r d hsite => ⟨List.forall_mem_cons.mpr ⟨hwatermark, hmore⟩, hsite⟩

/-- The hash of each watermark that is loaded resolves. -/
theorem load_resolves (path : String) (localOnly : Bool) :
    (load path localOnly : Action ρ (List Commit)).Yields I fun watermarks r d =>
      (∀ watermark ∈ watermarks, ∃ target, found watermark.hash = .ok target) ∧ I r d := by
  refine Action.Keeps.files.yields.bind fun files => ?_
  cases files.readText path with
  | error e => exact .throw _
  | ok text =>
    refine (readLines_resolves hresolve hlocal path localOnly _ 1).bind fun watermarks =>
      .of_fact fun hwatermarks => ?_
    exact (Action.Keeps.say _).yields.bind fun _ => .pure fun r d hsite => ⟨hwatermarks, hsite⟩

end Watermarks

/-! ## Recorded histories -/

namespace Recorded

/-- A branch that there is was pointed at another commit. -/
def Moved (h later : Recorded) : Prop :=
  ∃ name tip, (h.branches.lookup name).isSome = true ∧ later = h.branch name tip

/-- A recorded hash that is not the name of a branch is pinned to itself. -/
theorem pins_of_found {h : Recorded} {text hash : String} (hfound : h.found text = .ok hash)
    (hbranch : h.branches.lookup text = none) : Pins Moved h text text := by
  have hrecorded : (h.parents.lookup text).isSome = true := by
    unfold found lookup? at hfound
    rw [hbranch] at hfound
    by_contra hnone
    simp [hnone] at hfound
  refine Pins.of_kept (J := fun now => now.branches.lookup text = none ∧
    (now.parents.lookup text).isSome = true) ⟨hbranch, hrecorded⟩ ?_ ?_
  · rintro now later ⟨hnone, hsome⟩ ⟨name, tip, hname, rfl⟩
    refine ⟨?_, hsome⟩
    have hne : (text == name) = false := by
      rw [beq_eq_false_iff_ne]
      rintro rfl
      rw [hnone] at hname
      cases hname
    unfold branch
    rw [List.lookup_cons, hne]
    exact hnone
  · rintro site ⟨hnone, hsome⟩
    refine (find_settled text site ⟨.refl _, rfl⟩).1.trans ?_
    unfold found lookup?
    rw [hnone, hsome]
    rfl

end Recorded

/-! ## Git repositories -/

namespace Git.Workspace

/-- A local branch that there is was pointed at another commit. -/
def Moved (workspace later : Workspace) : Prop :=
  ∃ branch id, RefName.isBranch branch = true ∧ (workspace.here.ref? branch).isSome = true ∧
    later = workspace.setRepository workspace.root (workspace.here.setRef branch (.object id))

/-- The hash that a name resolves to, or that there is none. -/
def found (workspace : Workspace) (name : String) : Except Failure String :=
  match workspace.here.commitNamed? name with
  | some id => .ok id.hex
  | none => .error (.unresolvable name)

/-- What a repository answers on names. -/
def names (workspace : Workspace) : Names where
  resolve := workspace.found
  hasLocalBranch name :=
    if name.contains '\x00' then
      .error (.unavailable "data contained a nul byte that could not be represented as a string")
    else match RefName.ofBranch? name with
      | none => .error (.unavailable s!"cannot locate local branch \x27{name}\x27")
      | some ref => .ok (workspace.here.ref? ref).isSome

/-- A repository answers so on names, and nothing is changed by it. -/
theorem names_hold (workspace : Workspace) (files : Files) :
    workspace.names.Hold fun now d => now = workspace ∧ d = files where
  resolve name := by
    rintro site ⟨rfl, rfl⟩
    simp only [History.resolve, resolve, Action.debug, Action.perform_bind, Action.perform_say,
      perform_commitNamed, names, found]
    cases site.resource.here.commitNamed? name with
    | some id => exact ⟨rfl, rfl, rfl⟩
    | none => exact ⟨rfl, rfl, rfl⟩
  hasLocalBranch name := by
    rintro site ⟨rfl, rfl⟩
    simp only [History.hasLocalBranch, hasLocalBranch, names]
    split
    next => exact ⟨rfl, rfl, rfl⟩
    next =>
      cases RefName.ofBranch? name with
      | none => exact ⟨rfl, rfl, rfl⟩
      | some ref => exact ⟨rfl, rfl, rfl⟩

theorem resolve_settled (workspace : Workspace) (name : String) :
    (History.resolve name : Action Workspace String).Settled (fun r _ => r = workspace)
      (workspace.found name) :=
  .of_disks fun files => (workspace.names_hold files).resolve name

theorem hasLocalBranch_keeps {I : Workspace → Files → Prop} (name : String) :
    (History.hasLocalBranch name : Action Workspace Bool).Keeps I := by
  intro site hsite
  obtain ⟨-, hresource, hfiles⟩ :=
    (site.resource.names_hold site.files).hasLocalBranch name site ⟨rfl, rfl⟩
  rw [hresource, hfiles]
  exact hsite

/-- A name that leads to a commit and is not misread is pinned to that commit. -/
theorem pins_of_commitNamed? {workspace : Workspace} {text : String} {id : ObjectId}
    (hnamed : workspace.here.commitNamed? text = some id)
    (hclear : ¬workspace.here.Misread text) : Pins Moved workspace text id.hex := by
  refine Pins.of_kept (J := fun now => now.here.objects = workspace.here.objects ∧
    ∀ name, (now.here.ref? name).isSome = (workspace.here.ref? name).isSome) ⟨rfl, fun _ => rfl⟩ ?_ ?_
  · rintro now later ⟨hobjects, hrefs⟩ ⟨branch, moved, -, hbranch, rfl⟩
    rw [here_setRepository, Repository.objects_setRef]
    refine ⟨hobjects, fun name => ?_⟩
    by_cases hname : name = branch
    · rw [hname, Repository.ref?_setRef_self, ← hrefs, hbranch]
      rfl
    · rw [Repository.ref?_setRef_of_ne _ _ hname, hrefs]
  · rintro site ⟨hobjects, hrefs⟩
    refine resolve_eq_ok_iff.mpr ?_
    exact Repository.commitNamed?_congr hobjects hclear
      (Repository.not_misread_of_moved hobjects hrefs hclear) hnamed

end Git.Workspace

/-! ## Watermarks -/

open Git

/-- **What a watermark stands for stays the same** wherever the branches are moved, if its hash is
one: it is not the name of a branch, or it is not misread. Its commit then has a hash that begins
with it. -/
theorem Watermarks.load_pins (path : String) (localOnly : Bool) :
    (∀ (site after : Site Recorded) (watermarks : List Commit),
      (load path localOnly).perform site = (.ok watermarks, after) →
      ∀ watermark ∈ watermarks, site.resource.branches.lookup watermark.hash = none →
        Pins Recorded.Moved site.resource watermark.hash watermark.hash) ∧
    ∀ (site after : Site Workspace) (watermarks : List Commit),
      (load path localOnly).perform site = (.ok watermarks, after) →
      ∀ watermark ∈ watermarks, ¬site.resource.here.Misread watermark.hash →
        ∃ commit : ObjectId, watermark.hash.toLower.toList <+: commit.hex.toList ∧
          Pins Workspace.Moved site.resource watermark.hash commit.hex := by
  constructor
  · intro site after watermarks hload watermark hmem hbranch
    have hold := Recorded.hold site.resource site.files
    obtain ⟨hfound, -⟩ := load_resolves hold.resolve (fun name => (hold.hasLocalBranch name).keeps)
      path localOnly site watermarks after ⟨.refl _, rfl⟩ hload
    obtain ⟨target, htarget⟩ := hfound watermark hmem
    exact Recorded.pins_of_found htarget hbranch
  · intro site after watermarks hload watermark hmem hclear
    obtain ⟨hfound, -⟩ := load_resolves (Workspace.resolve_settled site.resource)
      Workspace.hasLocalBranch_keeps path localOnly site watermarks after rfl hload
    obtain ⟨target, htarget⟩ := hfound watermark hmem
    unfold Workspace.found at htarget
    split at htarget
    next commit hnamed =>
      exact ⟨commit, Repository.startsWith_of_commitNamed? hclear hnamed,
        Workspace.pins_of_commitNamed? hnamed hclear⟩
    next => cases htarget

/-- A watermark of each kind: a recorded hash, and the first digits of the hash of a merge. -/
theorem Watermarks.load_pins_sample :
    let recorded : Site Recorded := { resource := .sample, files := .sample }
    let site : Site Workspace := { Workspace.single .besideMerge with files := .holding "main dddd\n" }
    (∃ watermark after, (load "/state" false).perform recorded = (.ok [watermark], after) ∧
      watermark.hash = "a" ∧ Pins Recorded.Moved recorded.resource "a" "a") ∧
    ∃ watermark after, (load "/state" false).perform site = (.ok [watermark], after) ∧
      watermark.hash = "dddd" ∧
      ∃ commit : ObjectId, "dddd".toLower.toList <+: commit.hex.toList ∧
        Pins Workspace.Moved site.resource "dddd" commit.hex := by
  intro recorded site
  have hrecorded : (load "/state" false).perform recorded =
      (.ok [{ hash := "a", branch := ⟨⟨"m"⟩⟩ }], ((load "/state" false).perform recorded).2) :=
    Prod.ext (by cbv) rfl
  have hmain : site.resource.here.commitNamed? "main" = some (.uniform 'b') :=
    Repository.commitNamed?_besideMerge.1
  have hdigits : site.resource.here.commitNamed? "dddd" = some (.uniform 'd') :=
    Repository.commitNamed?_besideMerge.2
  have hread : site.files.readText "/state" = .ok "main dddd\n" := by cbv
  have hlines : Text.linesOf "main dddd\n" = ["main dddd"] := by cbv
  have hline : Line.read "main dddd" = .mark "main" "dddd" := by cbv
  have hsite : (load "/state" false).perform site =
      (.ok [{ hash := "dddd", branch := ⟨⟨"main"⟩⟩ }], ((load "/state" false).perform site).2) := by
    refine Prod.ext ?_ rfl
    simp only [load, Action.perform_bind, Action.perform_files, hread, hlines, readLines, hline,
      verified, Branch.lookup, Revision.lookup, Revision.verify, Commit.lookup, History.resolve,
      Workspace.resolve, Action.debug, Action.perform_say, Workspace.perform_commitNamed, hmain,
      hdigits, Action.perform_pure, Bool.false_eq_true, if_false]
  refine ⟨⟨_, _, hrecorded, rfl, (load_pins "/state" false).1 recorded _ _ hrecorded _
    (List.mem_singleton_self _) (by decide)⟩, _, _, hsite, rfl,
    (load_pins "/state" false).2 site _ _ hsite _ (List.mem_singleton_self _)
      Repository.not_misread_besideMerge⟩

/-- The name of a branch is loaded in the place of a hash, and does not stay at its commit. -/
theorem Watermarks.not_pinned_branch :
    let site : Site Recorded := { resource := .sample, files := .holding "m m\n" }
    ∃ watermark after, (load "/state" false).perform site = (.ok [watermark], after) ∧
      ¬∃ hash, Pins Recorded.Moved site.resource watermark.hash hash := by
  intro site
  have hload : (load "/state" false).perform site =
      (.ok [{ hash := "m", branch := ⟨⟨"m"⟩⟩ }], ((load "/state" false).perform site).2) :=
    Prod.ext (by cbv) rfl
  refine ⟨_, _, hload, ?_⟩
  rintro ⟨hash, hpins⟩
  have hnow := hpins site .refl
  have hlater := hpins { site with resource := Recorded.sample.branch "m" "a" }
    (.single ⟨"m", "a", rfl, rfl⟩)
  have hsame : (Except.ok "c" : Except Failure String) = .ok "a" := hnow.trans hlater.symm
  exact absurd (Except.ok.inj hsame) (by decide)

end CommitReports
