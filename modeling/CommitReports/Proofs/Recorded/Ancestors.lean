import CommitReports.History.Recorded
import CommitReports.Proofs.Graph.Search
import Mathlib

/-!
# Ancestors in whatever was written down

A recorded history takes any entries: commits that name themselves or one another as parents,
parents that are never recorded or named twice, and commits that are recorded again with other
parents, in which case the last record counts (`mem_parentsOf_ofEntries`). The search for the
ancestors of a hash ends on all of them, and finds the hashes that can be reached from it by
the recorded parents, itself included (`ancestors_exact`).
-/

namespace CommitReports.Recorded

/-- What is written down in a recorded history. -/
inductive Entry where
  | commit (hash : String) (parents : List String)
  | branch (name tip : String)
  deriving DecidableEq, Repr

/-- Writes down an entry. -/
def write (h : Recorded) : Entry → Recorded
  | .commit hash parents => h.commit hash parents
  | .branch name tip => h.branch name tip

/-- The history that entries make which are written down one after the other. -/
def ofEntries (entries : List Entry) : Recorded := entries.foldl write {}

/-- The last record of a commit names these parents. -/
def LastNames (entries : List Entry) (hash : String) (parents : List String) : Prop :=
  ∃ before after, entries = before ++ .commit hash parents :: after ∧
    ∀ others, .commit hash others ∉ after

/-- A commit has another one for a parent, by its last record. -/
def IsParent (entries : List Entry) (child parent : String) : Prop :=
  ∃ parents, LastNames entries child parents ∧ parent ∈ parents

variable {entries : List Entry}

/-- One more entry counts if it is a record of the commit, and changes nothing otherwise. -/
theorem lastNames_append {entry : Entry} {hash : String} {parents : List String} :
    LastNames (entries ++ [entry]) hash parents ↔ entry = .commit hash parents ∨
      (∀ others, entry ≠ .commit hash others) ∧ LastNames entries hash parents := by
  constructor
  · rintro ⟨before, after, heq, hlast⟩
    rcases List.eq_nil_or_concat after with rfl | ⟨front, final, rfl⟩
    · obtain ⟨-, hentry⟩ := List.append_inj' heq rfl
      exact .inl (List.singleton_inj.mp hentry)
    · rw [List.concat_eq_append] at heq hlast
      rw [← List.cons_append, ← List.append_assoc] at heq
      obtain ⟨hfront, hentry⟩ := List.append_inj' heq rfl
      obtain rfl := List.singleton_inj.mp hentry
      refine .inr ⟨fun others hrecord => hlast others ?_, before, front, hfront, fun others hmem =>
        hlast others (List.mem_append_left _ hmem)⟩
      exact List.mem_append_right _ (List.mem_singleton.mpr hrecord.symm)
  · rintro (rfl | ⟨hother, before, after, rfl, hlast⟩)
    · exact ⟨entries, [], rfl, fun _ => List.not_mem_nil⟩
    · refine ⟨before, after ++ [entry], by simp, fun others hmem => ?_⟩
      rcases List.mem_append.mp hmem with hmem | hmem
      · exact hlast others hmem
      · exact hother others (List.mem_singleton.mp hmem).symm

/-- The parents that a history gives are those of the last record. -/
theorem mem_parentsOf_ofEntries {child parent : String} :
    parent ∈ (ofEntries entries).parents.parentsOf child ↔ IsParent entries child parent := by
  induction entries using List.reverseRecOn with
  | nil =>
    refine iff_of_false List.not_mem_nil ?_
    rintro ⟨parents, ⟨before, after, heq, -⟩, -⟩
    exact absurd heq.symm (by simp)
  | append_singleton entries entry ih =>
    have hwritten : ofEntries (entries ++ [entry]) = (ofEntries entries).write entry := by
      simp [ofEntries]
    rw [hwritten]
    unfold IsParent
    simp only [lastNames_append]
    cases entry with
    | branch name tip =>
      show parent ∈ (ofEntries entries).parents.parentsOf child ↔ _
      rw [ih]
      simp [IsParent]
    | commit hash parents =>
      show parent ∈ Graph.parentsOf ((hash, parents) :: (ofEntries entries).parents) child ↔ _
      by_cases heq : child = hash
      · subst heq
        simp [Graph.parentsOf_cons_self]
      · have hother : hash ≠ child := fun h => heq h.symm
        rw [Graph.parentsOf_cons_of_ne _ _ heq, ih]
        simp [hother, IsParent]

theorem reaches_ofEntries {a b : String} : (ofEntries entries).parents.Reaches a b ↔
    Relation.ReflTransGen (IsParent entries) a b := by
  unfold Graph.Reaches
  simp only [mem_parentsOf_ofEntries]

/-- **The search for ancestors ends, and is exact.** Whatever was written down, a search makes no
more steps than the ancestors have parents, and one; as long as its list is not empty, it can go on,
and when the list is empty, it has marked what can be reached by the recorded parents, once. This
is where `Graph.ancestors` ends. -/
theorem ancestors_exact (entries : List Entry) (first : String) :
    let g := (ofEntries entries).parents
    let most := 1 + ((g.ancestors first).flatMap g.parentsOf).length
    (∀ n s, Graph.Search.Steps g n (.start first) s →
      n ≤ most ∧ (s.pending ≠ [] → ∃ s', Graph.Search.Step g s s') ∧
      (s.pending = [] → n = most ∧ s.marked.Nodup ∧
        ∀ hash, hash ∈ s.marked ↔ Relation.ReflTransGen (IsParent entries) first hash)) ∧
    Graph.Search.Steps g most (.start first) { marked := g.ancestors first, pending := [] } ∧
    ∀ hash, hash ∈ g.ancestors first ↔ Relation.ReflTransGen (IsParent entries) first hash := by
  intro g most
  refine ⟨fun n s hsteps => ?_, Graph.Search.steps_ancestors g first, fun hash =>
    Graph.mem_ancestors_iff.trans reaches_ofEntries⟩
  have hsound := hsteps.sound (.start g first)
  rw [Nat.zero_add] at hsound
  refine ⟨hsound.made_le, Graph.Search.exists_step, fun hend => ?_⟩
  refine ⟨hsound.made_eq hend, hsound.nodup, fun hash => ?_⟩
  exact (hsound.mem_marked_iff hend).trans reaches_ofEntries

/-- A commit that is recorded again and was its own parent before, two commits that are parents of
each other, one of them twice, and a parent that is never recorded. -/
def Entry.tangled : List Entry :=
  [.commit "a" ["a"], .commit "b" ["c", "c"], .commit "c" ["b", "x"], .branch "m" "b",
    .commit "a" ["b"]]

/-- The search in these takes six steps. -/
theorem ancestors_exact_tangled :
    let g := (ofEntries Entry.tangled).parents
    g.ancestors "a" = ["x", "c", "b", "a"] ∧
    Graph.Search.Steps g 6 (.start "a") { marked := ["x", "c", "b", "a"], pending := [] } ∧
    (∀ n s, Graph.Search.Steps g n (.start "a") s → n ≤ 6) ∧
    ∀ hash, hash ∈ ["x", "c", "b", "a"] ↔
      Relation.ReflTransGen (IsParent Entry.tangled) "a" hash := by
  intro g
  have hancestors : g.ancestors "a" = ["x", "c", "b", "a"] := by cbv
  have hmost : 1 + ((g.ancestors "a").flatMap g.parentsOf).length = 6 := by
    rw [hancestors]
    decide
  obtain ⟨hsearch, hsteps, hexact⟩ := ancestors_exact Entry.tangled "a"
  rw [hmost, hancestors] at hsteps
  rw [hancestors] at hexact
  exact ⟨hancestors, hsteps, fun n s hs => hmost ▸ (hsearch n s hs).1, hexact⟩

end CommitReports.Recorded
