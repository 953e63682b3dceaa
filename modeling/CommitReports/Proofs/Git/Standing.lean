import CommitReports.Git.FastForward
import CommitReports.Proofs.Git.Walk

/-!
# How branches stand to what they follow

A branch is behind what it follows if its commit is a proper ancestor of the other
one (`Repository.Behind`). The comparison of two commits comes to this wherever it is
given an answer at all (`standing_eq_behind_iff`), and it fails only where a history
has gaps (`standing_isOk_iff`).
-/

namespace CommitReports

/-- A node is reached from another one, and is not that one itself. -/
def Graph.ProperAncestor {ν : Type} [DecidableEq ν] (g : Graph ν) (older newer : ν) : Prop :=
  older ≠ newer ∧ g.Reaches newer older

namespace Git.Repository

variable {repository : Repository} {own other : ObjectId} {branch upstream : String}

/-! ## Two commits -/

/-- The question for an ancestor has an answer if both histories are complete. -/
theorem isDescendant_eq (commit ancestor : ObjectId) :
    (∃ answer, repository.isDescendant commit ancestor = .ok answer ∧
        (answer = true ↔ repository.objects.graph.ProperAncestor ancestor commit) ∧
        repository.Complete commit ∧ repository.Complete ancestor) ∨
      ∃ fault, repository.isDescendant commit ancestor = .error fault ∧
        ¬(repository.Complete commit ∧ repository.Complete ancestor) := by
  unfold isDescendant
  rw [← gap?_eq_none_iff, ← gap?_eq_none_iff]
  cases repository.gap? commit with
  | some fault => exact .inr ⟨fault, rfl, fun h => nomatch h.1⟩
  | none =>
    cases repository.gap? ancestor with
    | some fault => exact .inr ⟨fault, rfl, fun h => nomatch h.2⟩
    | none =>
      refine .inl ⟨_, rfl, ?_, rfl, rfl⟩
      rw [Bool.and_eq_true, List.contains_iff_mem, Graph.mem_ancestors_iff, bne_iff_ne, ne_comm]
      rfl

/-- A commit is behind another one if both histories are complete and it is a proper ancestor. -/
theorem standing_eq_behind_iff : repository.standing own other = .ok .behind ↔
    repository.Complete own ∧ repository.Complete other ∧
      repository.objects.graph.ProperAncestor own other := by
  unfold standing
  by_cases heq : own = other
  · rw [if_pos heq]
    exact ⟨nofun, fun h => absurd heq h.2.2.1⟩
  rw [if_neg heq]
  rcases repository.isDescendant_eq other own with
    ⟨answer, hanswer, hiff, hother, hown⟩ | ⟨fault, hfault, hgap⟩
  · rw [hanswer]
    cases answer with
    | true => exact ⟨fun _ => ⟨hown, hother, hiff.mp rfl⟩, fun _ => rfl⟩
    | false =>
      refine ⟨fun h => ?_, fun h => nomatch hiff.mpr h.2.2⟩
      -- It may still be ahead or on another line, or the question the other way may fail.
      rcases hback : repository.isDescendant own other with fault | ⟨⟩ | ⟨⟩ <;>
        simp [hback] at h
  · rw [hfault]
    exact ⟨nofun, fun h => absurd ⟨h.2.1, h.1⟩ hgap⟩

/-- Two commits are compared if they are one, or both histories are complete. -/
theorem standing_isOk_iff : (∃ standing, repository.standing own other = .ok standing) ↔
    own = other ∨ repository.Complete own ∧ repository.Complete other := by
  unfold standing
  by_cases heq : own = other
  · rw [if_pos heq]
    exact ⟨fun _ => .inl heq, fun _ => ⟨_, rfl⟩⟩
  rw [if_neg heq]
  rcases repository.isDescendant_eq other own with
    ⟨answer, hanswer, -, hother, hown⟩ | ⟨fault, hfault, hgap⟩
  · rw [hanswer]
    refine ⟨fun _ => .inr ⟨hown, hother⟩, fun _ => ?_⟩
    cases answer with
    | true => exact ⟨_, rfl⟩
    | false =>
      rcases repository.isDescendant_eq own other with ⟨answer, hback, -⟩ | ⟨fault, hback, hgap⟩
      · rw [hback]
        cases answer <;> exact ⟨_, rfl⟩
      · exact absurd ⟨hown, hother⟩ hgap
  · rw [hfault]
    exact ⟨nofun, fun h => absurd (h.resolve_left heq).symm hgap⟩

/-- Wherever a commit can be compared with one that it is a proper ancestor of, it is behind. -/
theorem behind_of_properAncestor {standing : Standing}
    (hstanding : repository.standing own other = .ok standing)
    (hproper : repository.objects.graph.ProperAncestor own other) : standing = .behind := by
  obtain ⟨hown, hother⟩ := (standing_isOk_iff.mp ⟨standing, hstanding⟩).resolve_left hproper.1
  have hbehind := standing_eq_behind_iff.mpr ⟨hown, hother, hproper⟩
  exact Except.ok.inj (hstanding.symm.trans hbehind)

/-! ## Branches -/

/-- A local branch and the reference that it follows stand for commits, and that of the branch is a
proper ancestor of the other one. -/
def Behind (repository : Repository) (branch upstream : String) : Prop :=
  RefName.isBranch branch = true ∧ repository.followedName? branch = some upstream ∧
    ∃ own other, repository.ref? branch = some (.object own) ∧
      repository.ref? upstream = some (.object other) ∧
      repository.objects.graph.ProperAncestor own other

theorem pair?_eq_some_iff : repository.pair? branch = some (own, other) ↔
    repository.ref? branch = some (.object own) ∧
      ∃ upstream, repository.followedName? branch = some upstream ∧
        repository.ref? upstream = some (.object other) := by
  have hfollowed : repository.followed? branch = some other ↔
      ∃ upstream, repository.followedName? branch = some upstream ∧
        repository.ref? upstream = some (.object other) := by
    unfold followed?
    simp only [Option.bind_eq_bind, Option.bind_eq_some_iff]
    refine exists_congr fun upstream => and_congr_right fun _ => ⟨?_, fun h => ⟨_, h, rfl⟩⟩
    rintro ⟨target, htarget, hobject⟩
    cases target with
    | object id =>
      cases hobject
      exact htarget
    | reference name => cases hobject
  unfold pair?
  rw [← hfollowed]
  split
  next hown hother => rw [hown, hother]; simp
  next hnone =>
    refine ⟨nofun, fun h => ?_⟩
    exact absurd h.2 (fun hother => hnone own other h.1 hother)

theorem behind_of_pair (hbranch : RefName.isBranch branch = true)
    (hpair : repository.pair? branch = some (own, other))
    (hbehind : repository.standing own other = .ok .behind) :
    ∃ upstream, repository.Behind branch upstream := by
  obtain ⟨hown, upstream, hfollows, hother⟩ := pair?_eq_some_iff.mp hpair
  obtain ⟨-, -, hproper⟩ := standing_eq_behind_iff.mp hbehind
  exact ⟨upstream, hbranch, hfollows, own, other, hown, hother, hproper⟩

/-- What a branch follows is a matter of the configuration. -/
theorem followedName?_congr {other : Repository}
    (h : other.configuration = repository.configuration) (branch : String) :
    other.followedName? branch = repository.followedName? branch := by
  unfold followedName? remoteNamed
  rw [h]

/-- A local branch is a reference of its own name, which is not `HEAD`. -/
theorem ne_head_of_isBranch (h : RefName.isBranch branch = true) : branch ≠ "HEAD" := by
  rintro rfl
  exact absurd h (by decide +kernel)

theorem mem_branchRefs_iff : branch ∈ repository.branchRefs ↔
    RefName.isBranch branch = true ∧ (repository.ref? branch).isSome = true := by
  unfold branchRefs
  rw [List.mem_mergeSort, List.mem_filter, and_comm]
  refine and_congr_right fun hbranch => ?_
  unfold ref?
  rw [if_neg (ne_head_of_isBranch hbranch), List.lookup_isSome_iff, List.mem_map]
  constructor
  · rintro ⟨entry, hentry, rfl⟩
    exact ⟨entry, hentry, beq_self_eq_true _⟩
  · rintro ⟨entry, hentry, heq⟩
    exact ⟨entry, hentry, (eq_of_beq heq).symm⟩

/-- The local branches are visited in the order of their names. -/
theorem pairwise_branchRefs (repository : Repository) :
    repository.branchRefs.Pairwise fun earlier later => earlier ≤ later := by
  have htrans : ∀ a b c : String, decide (a ≤ b) = true → decide (b ≤ c) = true →
      decide (a ≤ c) = true := fun _ _ _ hab hbc =>
    decide_eq_true (String.le_trans (of_decide_eq_true hab) (of_decide_eq_true hbc))
  have htotal : ∀ a b : String, (decide (a ≤ b) || decide (b ≤ a)) = true := fun a b => by
    rw [Bool.or_eq_true, decide_eq_true_iff, decide_eq_true_iff]
    exact String.le_total a b
  exact (List.pairwise_mergeSort htrans htotal _).imp of_decide_eq_true

end Git.Repository

end CommitReports
