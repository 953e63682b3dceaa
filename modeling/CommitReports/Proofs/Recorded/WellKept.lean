import CommitReports.Proofs.Recorded.Consistent
import CommitReports.Proofs.Text.Fields
import Mathlib

/-!
# Well kept recorded histories

A recorded history is *well kept* if it is consistent and hashes can stand as fields.
The report on a recorded commit is always the same: recording more commits and moving
branches does not change it (`WellKept.report_eq`, `Extends`). So the progress of
a line is known in full (`ProgressOn`): it reports what the tip reaches and the
watermark does not, each commit once, and goes on to the tip.
-/

namespace CommitReports.Recorded

variable {h : Recorded}

/-- Commits are recorded once and after their parents, and names do not interfere. -/
structure WellKept (h : Recorded) : Prop where
  layered : h.parents.Layered
  order : h.order.reverse = h.parents.nodes
  field : ∀ hash ∈ h.order, Text.IsField hash
  tip : ∀ name tip, h.branches.lookup name = some tip → tip ∈ h.order
  apart : ∀ name tip, h.branches.lookup name = some tip → name ∉ h.order

theorem WellKept.consistent (hw : h.WellKept) : h.Consistent :=
  ⟨hw.layered, hw.order, hw.tip, hw.apart⟩

/-- The report on a commit of a branch, from the records. -/
def reportOn (h : Recorded) (mail : Correspondence) (branch hash : String) : Report :=
  { sender := mail.sender, recipient := mail.recipient, branch, hash
    whatChanged := s!"commit {hash}\n:000000 100644 A\tfile-{hash}"
    diff :=
      match (h.parents.parentsOf hash).head? with
      | some parent => s!"diff {parent}..{hash}"
      | none => s!"diff empty..{hash}" }

/-! ## Reports -/

namespace WellKept

/-- The report on a recorded commit is the one that the records give. -/
theorem report_eq (hw : h.WellKept) (mail : Correspondence) (branch : String) {hash : String}
    (hhash : hash ∈ h.order) : h.answers.report mail branch hash = .ok (h.reportOn mail branch hash) := by
  have hfound := hw.consistent.found_hash hhash
  have hbase : h.answers.base hash = .ok (h.parents.parentsOf hash).head? := by
    simp only [Answers.base, answers, hfound]
    rfl
  have hdiff : h.answers.diff (h.parents.parentsOf hash).head? hash =
      .ok (h.reportOn mail branch hash).diff := by
    unfold answers reportOn
    cases hparents : (h.parents.parentsOf hash).head? with
    | none =>
      simp only [hfound]
      rfl
    | some parent =>
      have hparent : parent ∈ h.order := hw.consistent.mem_nodes.mp (hw.layered.mem_of_parent
        (hw.consistent.mem_nodes.mpr hhash) (List.mem_of_head? hparents))
      simp only [hfound, hw.consistent.found_hash hparent]
      rfl
  have hwhat : h.answers.whatChanged hash = .ok (h.reportOn mail branch hash).whatChanged := by
    unfold answers
    simp only [hfound]
    rfl
  unfold Answers.report
  rw [hwhat, hbase]
  exact Answers.bind_eq_ok.mpr ⟨_, rfl, Answers.bind_eq_ok.mpr ⟨_, rfl,
    Answers.bind_eq_ok.mpr ⟨_, hdiff, rfl⟩⟩⟩

theorem mapM_report_eq (hw : h.WellKept) (mail : Correspondence) (branch : String)
    {hashes : List String} (hall : ∀ hash ∈ hashes, hash ∈ h.order) :
    hashes.mapM (h.answers.report mail branch) = .ok (hashes.map (h.reportOn mail branch)) :=
  Answers.mapM_eq_ok fun hash hhash => hw.report_eq mail branch (hall hash hhash)

end WellKept

/-! ## The progress of a line -/

/-- The progress of a line with a branch and a hash, from the records. -/
def ProgressOn (h : Recorded) (mail : Correspondence) (m : String × String) (p : Progress) : Prop :=
  ∃ tip ∈ h.order, h.found m.1 = .ok tip ∧
    p = { branch := m.1, previous := m.2
          reports := (h.between m.2 tip).reverse.map (h.reportOn mail m.1) }

namespace WellKept

theorem progressOn (hw : h.WellKept) {mail : Correspondence} {m : String × String} {p : Progress}
    (hrecorded : m.2 ∈ h.order) (hp : h.answers.progress mail m.1 m.2 = .ok p) :
    h.ProgressOn mail m p := by
  obtain ⟨newest, hnewest, hp⟩ := Answers.bind_eq_ok.mp hp
  obtain ⟨reports, hreports, hp⟩ := Answers.bind_eq_ok.mp hp
  cases hp
  obtain ⟨since, hsince, hnewest⟩ := Answers.bind_eq_ok.mp hnewest
  obtain ⟨tip, htip, hnewest⟩ := Answers.bind_eq_ok.mp hnewest
  cases hnewest
  rw [hw.consistent.found_hash hrecorded] at hsince
  cases hsince
  have hlisted : ∀ hash ∈ (h.between m.2 tip).reverse, hash ∈ h.order := fun hash hhash =>
    (mem_between.mp (List.mem_reverse.mp hhash)).1
  rw [hw.mapM_report_eq mail m.1 hlisted] at hreports
  cases hreports
  exact ⟨tip, hw.consistent.mem_of_found htip, htip, rfl⟩

/-- The lines of a state file whose hashes are recorded make progress one by one. -/
theorem mapM_progressOn (hw : h.WellKept) {mail : Correspondence}
    {marks : List (String × String)} {lines : List Progress} (hall : ∀ m ∈ marks, m.2 ∈ h.order)
    (hmade : marks.mapM (fun m => h.answers.progress mail m.1 m.2) = .ok lines) :
    List.Forall₂ (h.ProgressOn mail) marks lines := by
  refine ((List.forall₂_and_left _ _).mpr ⟨hall, Answers.forall₂_of_mapM_eq_ok hmade⟩).imp ?_
  rintro m p ⟨hrecorded, hp⟩
  exact hw.progressOn hrecorded hp

end WellKept

namespace ProgressOn

variable {mail : Correspondence} {m : String × String} {p : Progress}

theorem branch (hp : h.ProgressOn mail m p) : p.branch = m.1 := by
  obtain ⟨_, -, -, rfl⟩ := hp
  rfl

/-- A line goes on to the tip of its branch, or has nothing to report and stays. -/
theorem current_cases (hw : h.WellKept) (hp : h.ProgressOn mail m p) {tip : String}
    (htip : h.found m.1 = .ok tip) : p.current = tip ∨ p.reports = [] ∧ p.current = m.2 := by
  obtain ⟨tip', hrecorded, htip', rfl⟩ := hp
  rw [htip] at htip'
  cases htip'
  by_cases hempty : h.between m.2 tip = []
  · exact .inr ⟨by simp [hempty], by simp [Progress.current, hempty]⟩
  · refine .inl ?_
    unfold Progress.current
    simp only
    rw [List.getLast?_map, List.getLast?_reverse, hw.consistent.head?_between hrecorded hempty]
    rfl

/-- The new watermark of a line is recorded. -/
theorem current_mem (hw : h.WellKept) (hp : h.ProgressOn mail m p) (hrecorded : m.2 ∈ h.order) :
    p.current ∈ h.order := by
  obtain ⟨tip, htip, hfound, -⟩ := id hp
  rcases hp.current_cases hw hfound with heq | ⟨-, heq⟩
  · rwa [heq]
  · rwa [heq]

/-- What is reported on a line: each commit once, if the tip reaches it and the watermark does not. -/
theorem reports_eq (hw : h.WellKept) (hp : h.ProgressOn mail m p) {tip : String}
    (htip : h.found m.1 = .ok tip) :
    ∃ hashes : List String, p.reports = hashes.map (h.reportOn mail m.1) ∧ hashes.Nodup ∧
      ∀ x, x ∈ hashes ↔ h.parents.Reaches tip x ∧ ¬h.parents.Reaches m.2 x := by
  obtain ⟨tip', hrecorded, htip', rfl⟩ := hp
  rw [htip] at htip'
  cases htip'
  refine ⟨(h.between m.2 tip).reverse, rfl, List.nodup_reverse.mpr (hw.consistent.nodup_between _ _), ?_⟩
  intro x
  rw [List.mem_reverse, mem_between]
  exact ⟨fun h => h.2, fun h => ⟨hw.consistent.mem_order hrecorded h.1, h⟩⟩

/-- The lines keep their branches. -/
theorem map_branch {marks : List (String × String)} {lines : List Progress}
    (hlines : List.Forall₂ (h.ProgressOn mail) marks lines) :
    lines.map (·.branch) = marks.map (·.1) := by
  rw [← List.forall₂_eq_eq_eq, List.forall₂_map_left_iff, List.forall₂_map_right_iff]
  exact (hlines.imp fun _ _ hp => hp.branch).flip

/-- Each mark has a line that has made progress from it. -/
theorem exists_line {marks : List (String × String)} {lines : List Progress}
    (hlines : List.Forall₂ (h.ProgressOn mail) marks lines) :
    ∀ m ∈ marks, ∃ p ∈ lines, h.ProgressOn mail m p :=
  Answers.exists_of_forall₂ (List.Forall₂.flip (R := flip (h.ProgressOn mail)) hlines)

/-- Each line has made progress from a mark. -/
theorem exists_mark {marks : List (String × String)} {lines : List Progress}
    (hlines : List.Forall₂ (h.ProgressOn mail) marks lines) :
    ∀ p ∈ lines, ∃ m ∈ marks, h.ProgressOn mail m p :=
  Answers.exists_of_forall₂ hlines

/-- The lines that recorded marks have made progress to hold recorded watermarks. -/
theorem forall_current_mem (hw : h.WellKept) {marks : List (String × String)} {lines : List Progress}
    (hlines : List.Forall₂ (h.ProgressOn mail) marks lines)
    (hrecorded : ∀ m ∈ marks, m.2 ∈ h.order) : ∀ p ∈ lines, p.current ∈ h.order := by
  intro p hp
  obtain ⟨m, hm, hprogress⟩ := exists_mark hlines p hp
  exact hprogress.current_mem hw (hrecorded m hm)

end ProgressOn

/-! ## Histories that have grown -/

/-- What was recorded still is, and is connected and reported on as before. -/
structure Extends (h later : Recorded) : Prop where
  recorded : ∀ hash ∈ h.order, hash ∈ later.order
  reaches : ∀ a ∈ h.order, ∀ b, later.parents.Reaches a b ↔ h.parents.Reaches a b
  reportOn : ∀ hash ∈ h.order, ∀ mail branch,
    later.reportOn mail branch hash = h.reportOn mail branch hash

/-- Nothing depends on the branches, the counts and the remote. -/
theorem Extends.of_eq {later : Recorded} (horder : later.order = h.order)
    (hparents : later.parents = h.parents) : h.Extends later where
  recorded hash hhash := by rwa [horder]
  reaches a _ b := by rw [hparents]
  reportOn hash _ mail branch := by
    unfold Recorded.reportOn
    rw [hparents]

theorem SameRecords.wellKept {later : Recorded} (hsame : h.SameRecords later) (hw : h.WellKept) :
    later.WellKept where
  layered := hsame.parents ▸ hw.layered
  order := by rw [hsame.order, hsame.parents, hw.order]
  field := hsame.order ▸ hw.field
  tip := by
    rw [hsame.branches, hsame.order]
    exact hw.tip
  apart := by
    rw [hsame.branches, hsame.order]
    exact hw.apart

/-- One more commit changes nothing for those that are recorded. -/
theorem Extends.commit {hash : String} {parents : List String} (hw : h.WellKept)
    (hlater : (h.commit hash parents).WellKept) : h.Extends (h.commit hash parents) where
  recorded other hother := List.mem_append_left _ hother
  reaches a ha b := hlater.layered.reaches_record (hw.consistent.mem_nodes.mpr ha)
  reportOn other hother mail branch := by
    have hne : other ≠ hash := fun heq => hlater.layered.1 (heq ▸ hw.consistent.mem_nodes.mpr hother)
    unfold Recorded.reportOn Recorded.commit
    simp only [Graph.parentsOf_cons_of_ne _ _ hne]

/-! ## A small history -/

/-- Three commits in a row, and a branch at the last one. -/
def sample : Recorded :=
  (((({} : Recorded).commit "a" []).commit "b" ["a"]).commit "c" ["b"]).branch "m" "c"

theorem consistent_sample : sample.Consistent :=
  Consistent.empty
    |>.commit (by decide) (by decide) rfl
    |>.commit (by decide) (by decide) rfl
    |>.commit (by decide) (by decide) rfl
    |>.branch (by decide) (by decide)

theorem wellKept_sample : sample.WellKept where
  layered := consistent_sample.layered
  order := consistent_sample.order
  field := by
    intro hash hhash
    simp only [sample, commit, branch, List.nil_append, List.cons_append, List.mem_cons,
      List.not_mem_nil, or_false] at hhash
    rcases hhash with rfl | rfl | rfl <;> exact ⟨by simp, by simp [Text.isBlank]⟩
  tip := consistent_sample.tip
  apart := consistent_sample.apart

end CommitReports.Recorded

namespace CommitReports

/-- A disk that holds a state file for the small history. -/
def Files.sample : Files := (Files.empty []).put ["state"] (.file "m a\n".toUTF8 false)

/-- A disk that holds any other state file. -/
def Files.holding (text : String) : Files := (Files.empty []).put ["state"] (.file text.toUTF8 false)

/-- Settings for this disk. -/
def Settings.sample : Settings := { sender := "from", recipient := "to", stateFile := "/state" }

theorem Files.readText_sample : Files.sample.readText Settings.sample.stateFile = .ok "m a\n" := by
  cbv

end CommitReports
