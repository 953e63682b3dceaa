import CommitReports.Proofs.History.Question
import CommitReports.Proofs.Report.Compose
import CommitReports.Run
import Mathlib.Data.List.Forall2

/-!
# Histories whose answers do not change

A history holds to some answers under a property of itself and of the files if,
wherever the property holds, it gives these answers and keeps the property
(`Answers.Hold`). The answers alone then say what is reported: `Answers.report` is
the report on a commit and `Answers.progress` what a run makes of one line of the
state file. That runs do come to this is shown where they are treated; here it is
shown for their parts up to the commits of a line and the report on each.
-/

namespace CommitReports

/-- An answer to every question. -/
structure Answers where
  resolve : (revision : String) → Except Failure String
  commitsBetween : (since upto : String) → Except Failure (List String)
  parent : (commit : String) → Except Failure (Option String)
  whatChanged : (commit : String) → Except Failure String
  diff : (base : Option String) → (tip : String) → Except Failure String
  hasLocalBranch : (name : String) → Except Failure Bool
  checkout : (branch : String) → Except Failure Unit
  refresh : Except Failure Unit

/-- What a run makes of one line of the state file. -/
structure Progress where
  branch : String
  /-- The hash that the line holds before the run. -/
  previous : String
  /-- The reports on the commits that have come since, in order. -/
  reports : List Report

namespace Progress

/-- The hash that the line holds after the run: that of the last report, or the one that it held. -/
def current (p : Progress) : String := (p.reports.getLast?.map (·.hash)).getD p.previous

/-- The line after the run. -/
def line (p : Progress) : String := p.branch ++ " " ++ p.current

/-- What the summary says about the line. -/
def summary (p : Progress) : BranchSummary :=
  { branch := p.branch, previous := p.previous, current := p.current, reported := p.reports.length }

end Progress

namespace Answers

/-- What the patch of a commit starts from: its first parent, or nothing if there is none. -/
def base (answers : Answers) (hash : String) : Except Failure (Option String) :=
  tryCatch (answers.parent hash) fun e => if e.isNoParent then return none else throw e

/-- The report on a commit, as it follows from the answers. -/
def report (answers : Answers) (mail : Correspondence) (branch hash : String) :
    Except Failure Report := do
  let whatChanged ← answers.whatChanged hash
  let base ← answers.base hash
  let diff ← answers.diff base hash
  return { sender := mail.sender, recipient := mail.recipient, branch, hash, whatChanged, diff }

/-- The commits that have come to a branch, newest first, as they follow from the answers: each hash
that is listed has to resolve. -/
def newest (answers : Answers) (watermark : Commit) : Except Failure (List Commit) := do
  let listed ← answers.commitsBetween watermark.hash watermark.branch.name
  listed.mapM fun hash => do
    let _ ← answers.resolve hash
    return { hash, branch := watermark.branch }

/-- The commits that have come to a branch, oldest first. -/
def discovered (answers : Answers) (watermark : Commit) (checkout : Bool) :
    Except Failure (List Commit) := do
  if checkout then answers.checkout watermark.branch.name
  let newest ← answers.newest watermark
  return newest.reverse

/-- What a run makes of a watermark, as it follows from the answers: its branch is shown if that is
asked for, and the commits that have come to it are reported. -/
def taken (answers : Answers) (settings : Settings) (watermark : Commit) :
    Except Failure Progress := do
  let commits ← answers.discovered watermark settings.checkoutBranches
  let reports ← commits.mapM fun c =>
    answers.report settings.correspondence c.branch.name c.hash
  return { branch := watermark.branch.name, previous := watermark.hash, reports }

/-- What a run that succeeds makes of a line: the commits that have come to the branch, oldest
first, are reported. -/
def progress (answers : Answers) (mail : Correspondence) (branch previous : String) :
    Except Failure Progress := do
  let newest ← answers.commitsBetween previous branch
  let reports ← newest.reverse.mapM (answers.report mail branch)
  return { branch, previous, reports }

/-- A pair of computations has a value if both have. -/
theorem bind_eq_ok {α β : Type} {first : Except Failure α} {next : α → Except Failure β} {b : β} :
    (first >>= next) = .ok b ↔ ∃ a, first = .ok a ∧ next a = .ok b := by
  cases first with
  | error e => exact ⟨nofun, fun ⟨_, h, _⟩ => nomatch h⟩
  | ok a => exact ⟨fun h => ⟨a, rfl, h⟩, fun ⟨_, rfl, h⟩ => h⟩

/-- A list of computations has a value if each of them has. -/
theorem mapM_eq_ok {α β : Type} {f : α → Except Failure β} {g : α → β} :
    ∀ {l : List α}, (∀ a ∈ l, f a = .ok (g a)) → l.mapM f = .ok (l.map g) := by
  intro l
  induction l with
  | nil => exact fun _ => rfl
  | cons a l ih =>
    intro hall
    obtain ⟨ha, hrest⟩ := List.forall_mem_cons.mp hall
    rw [List.mapM_cons, ha, ih hrest]
    rfl

/-- A list of computations gives what each of them gives. -/
theorem mapM_eq_ok_iff {α β : Type} {f : α → Except Failure β} :
    ∀ {l : List α} {bs : List β},
      l.mapM f = .ok bs ↔ List.Forall₂ (fun a b => f a = .ok b) l bs := by
  intro l
  induction l with
  | nil =>
    intro bs
    rw [List.mapM_nil, List.forall₂_nil_left_iff]
    exact ⟨fun h => (Except.ok.inj h).symm, fun h => congrArg _ h.symm⟩
  | cons a l ih =>
    intro bs
    rw [List.mapM_cons, bind_eq_ok, List.forall₂_cons_left_iff]
    constructor
    · rintro ⟨b, hb, h⟩
      obtain ⟨more, hmore, h⟩ := bind_eq_ok.mp h
      cases h
      exact ⟨b, more, hb, ih.mp hmore, rfl⟩
    · rintro ⟨b, more, hb, hmore, rfl⟩
      exact ⟨b, hb, bind_eq_ok.mpr ⟨more, ih.mpr hmore, rfl⟩⟩

theorem forall₂_of_mapM_eq_ok {α β : Type} {f : α → Except Failure β} {l : List α} {bs : List β}
    (h : l.mapM f = .ok bs) : List.Forall₂ (fun a b => f a = .ok b) l bs :=
  mapM_eq_ok_iff.mp h

/-- A list of computations gives something if and only if each of them does. -/
theorem exists_mapM_eq_ok_iff {α β : Type} {f : α → Except Failure β} {l : List α} :
    (∃ bs, l.mapM f = .ok bs) ↔ ∀ a ∈ l, ∃ b, f a = .ok b := by
  simp only [mapM_eq_ok_iff]
  induction l with
  | nil => simp
  | cons a l ih =>
    rw [List.forall_mem_cons, ← ih]
    constructor
    · rintro ⟨_, h⟩
      obtain ⟨b, bs, hb, hbs, rfl⟩ := List.forall₂_cons_left_iff.mp h
      exact ⟨⟨b, hb⟩, bs, hbs⟩
    · rintro ⟨⟨b, hb⟩, bs, hbs⟩
      exact ⟨b :: bs, .cons hb hbs⟩

/-- Where two lists are related item by item, each item of the second one is related to one of the
first. -/
theorem exists_of_forall₂ {α β : Type} {R : α → β → Prop} {l : List α} {bs : List β}
    (h : List.Forall₂ R l bs) : ∀ b ∈ bs, ∃ a ∈ l, R a b := by
  induction h with
  | nil => nofun
  | cons ha _ ih =>
    intro b hb
    rcases List.mem_cons.mp hb with rfl | hb
    · exact ⟨_, List.mem_cons_self, ha⟩
    · obtain ⟨a, hmem, ha⟩ := ih b hb
      exact ⟨a, List.mem_cons_of_mem _ hmem, ha⟩

/-- What is given stems from one of the computations. -/
theorem exists_of_mem_mapM {α β : Type} {f : α → Except Failure β} {l : List α} {bs : List β}
    (h : l.mapM f = .ok bs) {b : β} (hb : b ∈ bs) : ∃ a ∈ l, f a = .ok b :=
  exists_of_forall₂ (mapM_eq_ok_iff.mp h) b hb

/-- What a list of computations gives, others give that give the same for each item. -/
theorem mapM_eq_ok_of_imp {α β : Type} {f g : α → Except Failure β}
    (hfg : ∀ a b, f a = .ok b → g a = .ok b) {l : List α} {bs : List β} (h : l.mapM f = .ok bs) :
    l.mapM g = .ok bs :=
  mapM_eq_ok_iff.mpr ((mapM_eq_ok_iff.mp h).imp hfg)

/-- What a list of computations gives is known if what each of them gives is. -/
theorem eq_of_mapM_eq_ok {α β : Type} {f : α → Except Failure β} {g : α → β}
    (hf : ∀ a b, f a = .ok b → b = g a) {l : List α} {bs : List β} (h : l.mapM f = .ok bs) :
    bs = l.map g := by
  rw [← List.forall₂_eq_eq_eq, List.forall₂_map_right_iff]
  exact ((forall₂_of_mapM_eq_ok h).imp hf).flip

/-- The commits that have come are those that are listed, in the reverse order. -/
theorem discovered_eq_ok {answers : Answers} {watermark : Commit} {checkout : Bool}
    {commits : List Commit} (h : answers.discovered watermark checkout = .ok commits) :
    (checkout = true → answers.checkout watermark.branch.name = .ok ()) ∧
    ∃ listed, answers.commitsBetween watermark.hash watermark.branch.name = .ok listed ∧
      commits = listed.reverse.map fun hash => { hash, branch := watermark.branch } := by
  have hrest : (checkout = true → answers.checkout watermark.branch.name = .ok ()) ∧
      (answers.newest watermark >>= fun newest => pure newest.reverse) = .ok commits := by
    cases checkout with
    | false => exact ⟨nofun, h⟩
    | true =>
      obtain ⟨_, hcheckout, hnext⟩ := bind_eq_ok.mp h
      exact ⟨fun _ => hcheckout, hnext⟩
  obtain ⟨newest, hnewest, hreverse⟩ := bind_eq_ok.mp hrest.2
  obtain ⟨listed, hlisted, hmap⟩ := bind_eq_ok.mp hnewest
  cases hreverse
  refine ⟨hrest.1, listed, hlisted, ?_⟩
  rw [List.map_reverse, eq_of_mapM_eq_ok (fun hash commit hcommit => ?_) hmap]
  obtain ⟨-, -, hcommit⟩ := bind_eq_ok.mp hcommit
  exact (Except.ok.inj hcommit).symm

/-- Where nothing is listed, nothing has come. -/
theorem discovered_of_nil {answers : Answers} {watermark : Commit} {checkout : Bool}
    (hcheckout : checkout = true → answers.checkout watermark.branch.name = .ok ())
    (hlisted : answers.commitsBetween watermark.hash watermark.branch.name = .ok []) :
    answers.discovered watermark checkout = .ok [] := by
  have hnewest : answers.newest watermark = .ok [] := bind_eq_ok.mpr ⟨[], hlisted, rfl⟩
  unfold discovered
  rw [hnewest]
  cases checkout with
  | false => rfl
  | true =>
    rw [if_pos rfl, hcheckout rfl]
    rfl

/-- A report is on the branch and the commit that it was asked for. -/
theorem report_eq_ok {answers : Answers} {mail : Correspondence} {branch hash : String}
    {report : Report} (h : answers.report mail branch hash = .ok report) :
    report.branch = branch ∧ report.hash = hash := by
  obtain ⟨whatChanged, -, h⟩ := bind_eq_ok.mp h
  obtain ⟨base, -, h⟩ := bind_eq_ok.mp h
  obtain ⟨diff, -, h⟩ := bind_eq_ok.mp h
  cases h
  exact ⟨rfl, rfl⟩

/-- The reports on some commits of a branch are on these commits, in order. -/
theorem mapM_report_eq_ok {answers : Answers} {mail : Correspondence} {branch : String}
    {hashes : List String} {reports : List Report}
    (h : hashes.mapM (answers.report mail branch) = .ok reports) :
    reports.map (fun r => (r.branch, r.hash)) = hashes.map fun hash => (branch, hash) := by
  rw [← List.forall₂_eq_eq_eq, List.forall₂_map_left_iff, List.forall₂_map_right_iff]
  refine ((forall₂_of_mapM_eq_ok h).imp fun hash report hreport => ?_).flip
  obtain ⟨hbranch, hhash⟩ := report_eq_ok hreport
  exact Prod.ext hbranch hhash

/-- What is made of a watermark is progress on the commits that are discovered. -/
theorem taken_eq_ok {answers : Answers} {settings : Settings} {watermark : Commit} {p : Progress}
    (h : answers.taken settings watermark = .ok p) :
    answers.discovered watermark settings.checkoutBranches =
        .ok (p.reports.map fun r => { hash := r.hash, branch := watermark.branch }) ∧
      answers.progress settings.correspondence watermark.branch.name watermark.hash = .ok p ∧
      p.branch = watermark.branch.name ∧ p.previous = watermark.hash := by
  obtain ⟨commits, hcommits, h⟩ := bind_eq_ok.mp h
  obtain ⟨reports, hreports, h⟩ := bind_eq_ok.mp h
  cases h
  obtain ⟨-, listed, hlisted, rfl⟩ := discovered_eq_ok hcommits
  have hmade : listed.reverse.mapM
      (answers.report settings.correspondence watermark.branch.name) = .ok reports := by
    rwa [List.mapM_map] at hreports
  have hhashes : reports.map (·.hash) = listed.reverse := by
    simpa [Function.comp_def] using congrArg (List.map Prod.snd) (mapM_report_eq_ok hmade)
  refine ⟨?_, bind_eq_ok.mpr ⟨listed, hlisted, bind_eq_ok.mpr ⟨reports, hmade, rfl⟩⟩, rfl, rfl⟩
  rw [hcommits, ← hhashes, List.map_map]
  rfl

/-- Wherever the property holds, the history gives these answers and keeps the property. -/
structure Hold {ρ : Type} [History ρ] (answers : Answers) (I : ρ → Files → Prop) : Prop where
  resolve : ∀ revision,
    (History.resolve revision : Action ρ String).Settled I (answers.resolve revision)
  commitsBetween : ∀ since upto,
    (History.commitsBetween since upto : Action ρ (List String)).Settled I
      (answers.commitsBetween since upto)
  parent : ∀ commit,
    (History.parent commit : Action ρ (Option String)).Settled I (answers.parent commit)
  whatChanged : ∀ commit,
    (History.whatChanged commit : Action ρ String).Settled I (answers.whatChanged commit)
  diff : ∀ base tip,
    (History.diff base tip : Action ρ String).Settled I (answers.diff base tip)
  hasLocalBranch : ∀ name,
    (History.hasLocalBranch name : Action ρ Bool).Settled I (answers.hasLocalBranch name)
  checkout : ∀ branch,
    (History.checkout branch : Action ρ Unit).Settled I (answers.checkout branch)
  refresh : (History.refresh : Action ρ Unit).Settled I answers.refresh

variable {ρ : Type} [History ρ] {answers : Answers} {I : ρ → Files → Prop}

/-- A history that holds to its answers under a property keeps it, whatever it is asked. -/
theorem Hold.keeps (h : answers.Hold I) : History.Keeps (fun _ => True) I := by
  intro q _
  cases q with
  | resolve revision => exact (h.resolve revision).keeps.bind fun _ => .pure _
  | commitsBetween since upto => exact (h.commitsBetween since upto).keeps.bind fun _ => .pure _
  | parent commit => exact (h.parent commit).keeps.bind fun _ => .pure _
  | whatChanged commit => exact (h.whatChanged commit).keeps.bind fun _ => .pure _
  | diff base tip => exact (h.diff base tip).keeps.bind fun _ => .pure _
  | hasLocalBranch name => exact (h.hasLocalBranch name).keeps.bind fun _ => .pure _
  | checkout branch => exact (h.checkout branch).keeps
  | refresh => exact h.refresh.keeps

/-! ## New commits, and the report on each -/

/-- What is discovered follows from the answers. -/
theorem Hold.discovered (h : answers.Hold I) (watermark : Commit) (checkout : Bool) :
    (discover watermark checkout : Action ρ (List Commit)).Settled I
      (answers.discovered watermark checkout) := by
  have hlookup : ∀ hash, (Commit.lookup hash watermark.branch : Action ρ Commit).Settled I
      (answers.resolve hash >>= fun _ => pure { hash, branch := watermark.branch }) := by
    intro hash
    have hverified := (((h.resolve hash).bind fun _ => .pure ()).bind fun _ =>
      .pure (Revision.mk hash)).bind fun revision =>
        .pure ({ hash := revision.name, branch := watermark.branch } : Commit)
    cases hresolve : answers.resolve hash <;> rw [hresolve] at hverified <;> exact hverified
  have hnewest : (watermark.newCommitsSince watermark.branch : Action ρ (List Commit)).Settled I
      (answers.newest watermark) :=
    (h.commitsBetween _ _).bind fun listed => .mapM hlookup listed
  have hlisted : (do
      let newest ← watermark.newCommitsSince watermark.branch
      Action.debug s!"{watermark.branch.name}: {newest.reverse.length} new commit(s) since {watermark.hash}"
      return newest.reverse : Action ρ (List Commit)).Settled I
      (answers.newest watermark >>= fun newest => pure newest.reverse) :=
    hnewest.bind fun newest => (Action.Settled.say _).bind fun _ => .pure _
  cases checkout with
  | false => exact hlisted
  | true => exact (h.checkout _).bind fun _ => hlisted

/-- The report on a commit is the one that follows from the answers. -/
theorem Hold.about (h : answers.Hold I) (mail : Correspondence) (commit : Commit) :
    (Report.about mail commit : Action ρ Report).Settled I
      (answers.report mail commit.branch.name commit.hash) := by
  have hbase : (Commit.patchBase commit.hash : Action ρ (Option String)).Settled I
      (answers.base commit.hash) := by
    refine (h.parent commit.hash).tryCatch fun e => ?_
    split
    next => exact .pure _
    next => exact .throw _
  exact (h.whatChanged _).bind fun _ => hbase.bind fun _ => (h.diff _ _).bind fun _ => .pure _

end Answers

end CommitReports
