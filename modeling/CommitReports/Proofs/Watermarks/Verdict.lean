import CommitReports.Proofs.Recorded.Answers
import CommitReports.Proofs.Recorded.WellKept
import CommitReports.Proofs.Text.Lines
import CommitReports.Proofs.Watermarks.Loading

/-!
# The verdict on a state file

A line has at most one fault: that of the first of its checks that fails
(`Names.Fault`). A line is accepted if and only if it has none (`Names.accepts_iff`,
`Names.exists_fault`), so a file is either accepted, line by line, or has a first faulty
line. Loading tells the two apart: the error is the fault of the first faulty line
(`Names.readLines_eq_error_iff`), the induction going down the lines with their number.
What stands after that line is not looked at, so another file that begins with the same
lines gives the same error (`Watermarks.load_verdict`).
-/

namespace CommitReports

namespace Names

variable {names : Names} {path : String} {localOnly : Bool}

/-! ## The fault of a line -/

/-- What is wrong with the line of a number: the failure of the first of its checks that fails. -/
inductive Fault (names : Names) (path : String) (localOnly : Bool) (number : Nat) (line : String) :
    Failure → Prop
  /-- It has fields, but not two of them. -/
  | malformed : Text.fields line ≠ [] → (∀ branch hash, Text.fields line ≠ [branch, hash]) →
      Fault names path localOnly number line (.malformedLine path number line)
  /-- The branch does not resolve. -/
  | branch {branch hash : String} {e : Failure} : Text.fields line = [branch, hash] →
      names.resolve branch = .error e → Fault names path localOnly number line e
  /-- Whether the branch is local cannot be told. -/
  | locality {branch hash target : String} {e : Failure} : Text.fields line = [branch, hash] →
      names.resolve branch = .ok target → localOnly = true →
      names.hasLocalBranch branch = .error e → Fault names path localOnly number line e
  /-- The branch is to be local and is not. -/
  | notLocal {branch hash target : String} : Text.fields line = [branch, hash] →
      names.resolve branch = .ok target → localOnly = true →
      names.hasLocalBranch branch = .ok false →
      Fault names path localOnly number line (.unresolvable (branch ++ " (not a local branch)"))
  /-- The hash does not resolve. -/
  | hash {branch hash target : String} {e : Failure} : Text.fields line = [branch, hash] →
      names.resolve branch = .ok target →
      (localOnly = true → names.hasLocalBranch branch = .ok true) →
      names.resolve hash = .error e → Fault names path localOnly number line e

theorem read_of_fields {line branch hash : String} (h : Text.fields line = [branch, hash]) :
    Watermarks.Line.read line = .mark branch hash := by
  rw [Watermarks.Line.read, h]

/-- A line is accepted if and only if it has no fields, or two that verify. -/
theorem accepts_iff {line : String} : names.Accepts localOnly line ↔ Text.fields line = [] ∨
    ∃ branch hash, Text.fields line = [branch, hash] ∧ names.Verifies localOnly (branch, hash) := by
  unfold Accepts Watermarks.Line.read
  split <;> split at * <;> simp_all

/-- The line is faulty: reading ends at it, with its fault. -/
theorem Fault.readLines_cons {number : Nat} {line : String} {e : Failure}
    (h : names.Fault path localOnly number line e) (rest : List String) :
    names.readLines path localOnly number (line :: rest) = .error e := by
  rw [readLines]
  cases h with
  | malformed hnil hpair =>
    have hread : Watermarks.Line.read line = .malformed := by
      unfold Watermarks.Line.read
      split <;> simp_all
    rw [hread]
  | branch hfields hbranch =>
    rw [read_of_fields hfields]
    simp only [verified, Names.branch, hbranch]
    rfl
  | locality hfields hbranch hlocal herror =>
    rw [read_of_fields hfields]
    simp only [verified, Names.branch, hbranch, hlocal, herror]
    rfl
  | notLocal hfields hbranch hlocal hfalse =>
    rw [read_of_fields hfields]
    simp only [verified, Names.branch, hbranch, hlocal, hfalse]
    rfl
  | hash hfields hbranch hlocal hhash =>
    rw [read_of_fields hfields]
    have hfound := branch_eq_ok_iff.mpr ⟨⟨_, hbranch⟩, hlocal, rfl⟩
    simp only [verified, hfound, hhash]
    rfl

/-- A line that is not accepted has a fault. -/
theorem exists_fault {line : String} (h : ¬names.Accepts localOnly line) (number : Nat) :
    ∃ e, names.Fault path localOnly number line e := by
  rw [accepts_iff, not_or] at h
  obtain ⟨hnil, hverifies⟩ := h
  by_cases hpair : ∃ branch hash, Text.fields line = [branch, hash]
  · obtain ⟨branch, hash, hfields⟩ := hpair
    cases hbranch : names.resolve branch with
    | error e => exact ⟨e, .branch hfields hbranch⟩
    | ok target =>
      -- What is left to fail is the locality, if it counts, and then the hash.
      by_cases hlocal : localOnly = true → names.hasLocalBranch branch = .ok true
      · cases hhash : names.resolve hash with
        | error e => exact ⟨e, .hash hfields hbranch hlocal hhash⟩
        | ok commit =>
          exact absurd ⟨branch, hash, hfields, ⟨target, hbranch⟩, hlocal, commit, hhash⟩ hverifies
      · obtain ⟨honly, hanswer⟩ := Classical.not_imp.mp hlocal
        cases hlookup : names.hasLocalBranch branch with
        | error e => exact ⟨e, .locality hfields hbranch honly hlookup⟩
        | ok isLocal =>
          cases isLocal with
          | true => exact absurd hlookup hanswer
          | false => exact ⟨_, .notLocal hfields hbranch honly hlookup⟩
  · push Not at hpair
    exact ⟨_, .malformed hnil hpair⟩

/-! ## The first faulty line -/

/-- Reading goes on behind a line that is accepted. -/
theorem readLines_cons_eq_error_iff {number : Nat} {line : String} {rest : List String}
    {e : Failure} (h : names.Accepts localOnly line) :
    names.readLines path localOnly number (line :: rest) = .error e ↔
      names.readLines path localOnly (number + 1) rest = .error e := by
  rw [readLines]
  unfold Accepts at h
  cases hread : Watermarks.Line.read line with
  | blank => rfl
  | malformed => simp [hread] at h
  | mark branch hash =>
    rw [hread] at h
    simp only [verified_eq_ok_iff.mpr ⟨h, rfl⟩]
    cases names.readLines path localOnly (number + 1) rest with
    | error e => rfl
    | ok more =>
      constructor
      · intro heq
        cases heq
      · intro heq
        cases heq

/-- **The error is the fault of the first faulty line**, at the number that the line has. -/
theorem readLines_eq_error_iff {e : Failure} :
    ∀ {lines : List String} {number : Nat},
      names.readLines path localOnly number lines = .error e ↔
        ∃ before line after, lines = before ++ line :: after ∧
          (∀ l ∈ before, names.Accepts localOnly l) ∧
          names.Fault path localOnly (number + before.length) line e := by
  intro lines
  induction lines with
  | nil =>
    intro number
    simp [readLines]
  | cons first rest ih =>
    intro number
    by_cases hfirst : names.Accepts localOnly first
    · rw [readLines_cons_eq_error_iff hfirst, ih]
      constructor
      · rintro ⟨before, line, after, rfl, hbefore, hfault⟩
        refine ⟨first :: before, line, after, rfl, List.forall_mem_cons.mpr ⟨hfirst, hbefore⟩, ?_⟩
        rwa [List.length_cons, Nat.add_comm before.length, ← Nat.add_assoc]
      · rintro ⟨before, line, after, hlines, hbefore, hfault⟩
        cases before with
        | nil =>
          obtain ⟨rfl, -⟩ := List.cons.inj hlines
          have hread := hfault.readLines_cons []
          rw [readLines_cons_eq_error_iff hfirst] at hread
          cases hread
        | cons other before =>
          obtain ⟨rfl, rfl⟩ := List.cons.inj hlines
          refine ⟨before, line, after, rfl, fun l hl => hbefore l (List.mem_cons_of_mem _ hl), ?_⟩
          rwa [List.length_cons, Nat.add_comm before.length, ← Nat.add_assoc] at hfault
    · obtain ⟨found, hfound⟩ : ∃ e, names.Fault path localOnly number first e :=
        exists_fault hfirst number
      rw [hfound.readLines_cons]
      constructor
      · intro heq
        cases heq
        exact ⟨[], first, rest, rfl, List.forall_mem_nil _, hfound⟩
      · rintro ⟨before, line, after, hlines, hbefore, hfault⟩
        cases before with
        | nil =>
          obtain ⟨rfl, -⟩ := List.cons.inj hlines
          rw [← hfound.readLines_cons [], ← hfault.readLines_cons []]
          rfl
        | cons other before =>
          obtain ⟨rfl, -⟩ := List.cons.inj hlines
          exact absurd (hbefore _ List.mem_cons_self) hfirst

/-- Behind a faulty line nothing is read. -/
theorem readLines_append {number : Nat} {lines : List String}
    (h : ¬∀ line ∈ lines, names.Accepts localOnly line) (more : List String) :
    names.readLines path localOnly number (lines ++ more) =
      names.readLines path localOnly number lines := by
  cases hread : names.readLines path localOnly number lines with
  | ok watermarks => exact absurd (readLines_eq_ok_iff.mp hread).1 h
  | error e =>
    obtain ⟨before, line, after, rfl, hbefore, hfault⟩ := readLines_eq_error_iff.mp hread
    exact readLines_eq_error_iff.mpr ⟨before, line, after ++ more, by simp, hbefore, hfault⟩

end Names

namespace Watermarks

/-- The marks are the two fields of the lines that have two, in order. -/
theorem forall₂_marks (lines : List String) :
    List.Forall₂ (fun line w => Text.fields line = [Branch.name w.branch, w.hash])
      (lines.filter fun line => (Text.fields line).length = 2)
      ((lines.filterMap fun line => (Line.read line).mark?).map ofMark) := by
  rw [List.forall₂_map_right_iff]
  induction lines with
  | nil => exact .nil
  | cons line rest ih =>
    by_cases hlength : (Text.fields line).length = 2
    · obtain ⟨branch, hash, hfields⟩ := List.length_eq_two.mp hlength
      rw [List.filter_cons_of_pos (by simpa using hlength),
        List.filterMap_cons_some (b := (branch, hash)) (by rw [Names.read_of_fields hfields]; rfl)]
      exact .cons hfields ih
    · have hmark : (Line.read line).mark? = none := by
        unfold Line.read
        split <;> simp_all [Line.mark?]
      rw [List.filter_cons_of_neg (by simpa using hlength),
        List.filterMap_cons_none (f := fun line => (Line.read line).mark?) hmark]
      exact ih

variable {ρ : Type} [History ρ] {names : Names} {I : ρ → Files → Prop}

/-- **What loading accepts, and which error it gives.** The lines are those between line feeds. Where
they all are blank or name a branch and a hash that verify, the watermarks are what the lines name,
in order; else the error is the fault of the first faulty line, and another file that begins with
the lines up to a faulty one makes no difference. -/
theorem load_verdict (h : names.Hold I) {path : String} {localOnly : Bool} {site : Site ρ}
    {text : String} (hsite : I site.resource site.files)
    (hread : site.files.readText path = .ok text) :
    ((∃ watermarks, ((load path localOnly).perform site).1 = .ok watermarks) ↔
      ∀ line ∈ Text.feedLines text, Text.fields line = [] ∨ ∃ branch hash,
        Text.fields line = [branch, hash] ∧ names.Verifies localOnly (branch, hash)) ∧
    (∀ watermarks, ((load path localOnly).perform site).1 = .ok watermarks →
      List.Forall₂ (fun line w => Text.fields line = [Branch.name w.branch, w.hash])
        ((Text.feedLines text).filter fun line => (Text.fields line).length = 2) watermarks) ∧
    (∀ e, ((load path localOnly).perform site).1 = .error e ↔
      ∃ before line after, Text.feedLines text = before ++ line :: after ∧
        (∀ l ∈ before, names.Accepts localOnly l) ∧
        names.Fault path localOnly (1 + before.length) line e) ∧
    ∀ before line after, Text.feedLines text = before ++ line :: after →
      ¬names.Accepts localOnly line →
      ∀ (other : Site ρ) (otherText : String), I other.resource other.files →
        other.files.readText path = .ok otherText →
        before ++ [line] <+: Text.feedLines otherText →
        ((load path localOnly).perform other).1 = ((load path localOnly).perform site).1 := by
  have houtcome : ∀ {site : Site ρ} {text : String}, I site.resource site.files →
      site.files.readText path = .ok text → ((load path localOnly).perform site).1 =
        names.readLines path localOnly 1 (Text.feedLines text) := by
    intro site text hsite hread
    rw [(h.load path localOnly site hsite).1, hread, Names.loaded, Text.linesOf_eq_feedLines]
  rw [houtcome hsite hread]
  refine ⟨?_, ?_, fun e => Names.readLines_eq_error_iff, ?_⟩
  · simp only [Names.readLines_eq_ok_iff, exists_eq_right, Names.accepts_iff]
  · intro watermarks hload
    obtain ⟨-, rfl⟩ := Names.readLines_eq_ok_iff.mp hload
    exact forall₂_marks _
  · intro before line after hlines hline other otherText hother hotherRead hprefix
    obtain ⟨more, hmore⟩ := hprefix
    have hfaulty : ¬∀ l ∈ before ++ [line], names.Accepts localOnly l := by
      intro hall
      exact hline (hall line (List.mem_append_right _ (List.mem_singleton.mpr rfl)))
    rw [houtcome hother hotherRead, ← hmore, Names.readLines_append hfaulty, hlines,
      List.append_cons before line after, Names.readLines_append hfaulty]

/-- A file with carriage returns before its line feeds is loaded; and of three faulty lines the first
one counts, though it fails at its last check only. -/
theorem load_verdict_sample :
    let site (text : String) : Site Recorded := { resource := .sample, files := .holding text }
    (∃ watermarks, ((load "/state" true).perform (site " m\ta\r\n\r\n")).1 = .ok watermarks) ∧
    ((load "/state" true).perform (site "m a\n\nm zz\nm a b\nyy a\n")).1 =
      .error (.unresolvable "zz") := by
  intro site
  have hnames : ∀ files, Recorded.sample.answers.names.Hold fun r d =>
      Recorded.sample.Alike r ∧ d = files := fun files => (Recorded.hold .sample files).names
  have hverifies : Recorded.sample.answers.names.Verifies true ("m", "a") :=
    ⟨⟨"c", rfl⟩, fun _ => rfl, ⟨"a", rfl⟩⟩
  constructor
  · have hread : (site " m\ta\r\n\r\n").files.readText "/state" = .ok " m\ta\r\n\r\n" := by cbv
    refine (load_verdict (hnames _) ⟨.refl _, rfl⟩ hread).1.mpr ?_
    have hlines : Text.feedLines " m\ta\r\n\r\n" = [" m\ta", ""] := by decide
    rw [hlines, List.forall_mem_cons, List.forall_mem_singleton]
    exact ⟨.inr ⟨"m", "a", by decide, hverifies⟩, .inl (by decide)⟩
  · have hread : (site "m a\n\nm zz\nm a b\nyy a\n").files.readText "/state" =
        .ok "m a\n\nm zz\nm a b\nyy a\n" := by cbv
    refine ((load_verdict (hnames _) ⟨.refl _, rfl⟩ hread).2.2.1 _).mpr ?_
    refine ⟨["m a", ""], "m zz", ["m a b", "yy a"], by decide, ?_, ?_⟩
    · rw [List.forall_mem_cons, List.forall_mem_singleton, Names.accepts_iff, Names.accepts_iff]
      exact ⟨.inr ⟨"m", "a", by decide, hverifies⟩, .inl (by decide)⟩
    · have hfields : Text.fields "m zz" = ["m", "zz"] := by decide
      have hbranch : Recorded.sample.answers.names.resolve "m" = .ok "c" := rfl
      exact .hash hfields hbranch (fun _ => rfl) rfl

/-- A carriage return at the very end of a file stays with its line and shows in the error, where a
split that drops one from each line would name the line without it. -/
theorem last_return_stays :
    let site : Site Recorded := { resource := .sample, files := .holding "m a x\r" }
    ("m a x\r".toList.splitOn '\n').map Text.withoutReturn = ["m a x".toList] ∧
    ((load "/state" false).perform site).1 = .error (.malformedLine "/state" 1 "m a x\r") ∧
    ((load "/state" false).perform site).1 ≠ .error (.malformedLine "/state" 1 "m a x") := by
  intro site
  have hload : ((load "/state" false).perform site).1 =
      .error (.malformedLine "/state" 1 "m a x\r") := by cbv
  refine ⟨by decide, hload, ?_⟩
  rw [hload]
  simp

end Watermarks

end CommitReports
