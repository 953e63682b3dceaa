import CommitReports.Proofs.Graph.Reach
import CommitReports.Proofs.Recorded.Answers
import Mathlib.Data.List.Nodup
import Mathlib.Tactic.ByContra

/-!
# Consistent recorded histories

A recorded history is *consistent* if each commit is recorded once and after its
parents, branches point at recorded commits, and no branch is named like a recorded
hash. In such a history every name stands for a recorded commit or for none, and what
lies between two commits is listed newest first: no commit stands before one that it
can be reached from (`Consistent.pairwise_between`), and a listing that is not empty
begins with the tip (`Consistent.head?_between`). Recording a new commit and pointing a
branch at a recorded one keep a history consistent.
-/

namespace CommitReports.Recorded

variable {h : Recorded}

/-- Commits are recorded once and after their parents, and branches do not interfere with them. -/
structure Consistent (h : Recorded) : Prop where
  layered : h.parents.Layered
  order : h.order.reverse = h.parents.nodes
  tip : ∀ name tip, h.branches.lookup name = some tip → tip ∈ h.order
  apart : ∀ name tip, h.branches.lookup name = some tip → name ∉ h.order

/-! ## Listings -/

/-- What is listed is recorded, can be reached from the one commit and not from the other. -/
theorem mem_between {since upto hash : String} :
    hash ∈ h.between since upto ↔
      hash ∈ h.order ∧ h.parents.Reaches upto hash ∧ ¬h.parents.Reaches since hash := by
  simp [between, Graph.mem_ancestors_iff]

/-- Nothing is listed if and only if the first commit reaches the second one. -/
theorem between_eq_nil_iff {since upto : String} (hupto : upto ∈ h.order) :
    h.between since upto = [] ↔ h.parents.Reaches since upto := by
  rw [List.eq_nil_iff_forall_not_mem]
  constructor
  · intro hnone
    by_contra hsince
    exact hnone upto (mem_between.mpr ⟨hupto, .refl _ _, hsince⟩)
  · intro hsince hash hlisted
    obtain ⟨-, hreach, hhidden⟩ := mem_between.mp hlisted
    exact hhidden (hsince.trans hreach)

namespace Consistent

theorem mem_nodes (hc : h.Consistent) {hash : String} : hash ∈ h.parents.nodes ↔ hash ∈ h.order := by
  rw [← hc.order, List.mem_reverse]

/-- What a recorded commit reaches is recorded. -/
theorem mem_order (hc : h.Consistent) {a b : String} (ha : a ∈ h.order)
    (hab : h.parents.Reaches a b) : b ∈ h.order :=
  hc.mem_nodes.mp (hc.layered.mem_of_reaches (hc.mem_nodes.mpr ha) hab)

/-- No commit is listed twice. -/
theorem nodup_between (hc : h.Consistent) (since upto : String) : (h.between since upto).Nodup := by
  unfold between
  rw [hc.order]
  exact hc.layered.nodup_nodes.filter _

/-- No commit is listed before one that it can be reached from. -/
theorem pairwise_between (hc : h.Consistent) (since upto : String) :
    (h.between since upto).Pairwise fun a b => ¬h.parents.Reaches b a := by
  unfold between
  rw [hc.order]
  exact hc.layered.pairwise_nodes.filter _

/-- A listing begins with the tip, unless it is empty. -/
theorem head?_between (hc : h.Consistent) {since upto : String} (hupto : upto ∈ h.order)
    (hne : h.between since upto ≠ []) : (h.between since upto).head? = some upto := by
  have hsince : ¬h.parents.Reaches since upto := mt (between_eq_nil_iff hupto).mpr hne
  have htip : upto ∈ h.between since upto := mem_between.mpr ⟨hupto, .refl _ _, hsince⟩
  have hpairwise := hc.pairwise_between since upto
  cases hlisting : h.between since upto with
  | nil => exact absurd hlisting hne
  | cons first others =>
    -- The tip reaches all that is listed, so it does not follow the first one.
    have hreach : h.parents.Reaches upto first :=
      (mem_between.mp (hlisting ▸ List.mem_cons_self)).2.1
    rw [hlisting] at htip hpairwise
    rcases List.mem_cons.mp htip with rfl | hlater
    · rfl
    · exact absurd hreach ((List.pairwise_cons.mp hpairwise).1 upto hlater)

end Consistent

/-! ## Names -/

/-- A name stands for the tip of its branch or, if there is no such branch, for itself as a recorded
hash. -/
theorem found_eq_ok_iff {name hash : String} :
    h.found name = .ok hash ↔ h.branches.lookup name = some hash ∨
      h.branches.lookup name = none ∧ name ∈ h.parents.nodes ∧ hash = name := by
  unfold found lookup?
  cases h.branches.lookup name with
  | some tip => simp
  | none =>
    by_cases hrecord : name ∈ h.parents.nodes
    · have hsome := Graph.isSome_lookup_iff.mpr hrecord
      simp [hsome, hrecord, eq_comm]
    · have hnone : ¬(h.parents.lookup name).isSome = true := fun hsome =>
        hrecord (Graph.isSome_lookup_iff.mp hsome)
      simp [hnone, hrecord]

/-- A recorded hash stands for itself, unless a branch is named like it. -/
theorem found_of_apart {hash : String} (hnode : hash ∈ h.parents.nodes)
    (hapart : ∀ tip, h.branches.lookup hash ≠ some tip) : h.found hash = .ok hash :=
  found_eq_ok_iff.mpr (.inr ⟨Option.eq_none_iff_forall_ne_some.mpr hapart, hnode, rfl⟩)

namespace Consistent

theorem found_hash (hc : h.Consistent) {hash : String} (hhash : hash ∈ h.order) :
    h.found hash = .ok hash :=
  found_of_apart (hc.mem_nodes.mpr hhash) fun tip hlookup => hc.apart hash tip hlookup hhash

/-- A name that stands for a commit stands for a recorded one. -/
theorem mem_of_found (hc : h.Consistent) {name hash : String} (hfound : h.found name = .ok hash) :
    hash ∈ h.order := by
  rcases found_eq_ok_iff.mp hfound with hbranch | ⟨-, hnode, rfl⟩
  · exact hc.tip name hash hbranch
  · exact hc.mem_nodes.mp hnode

/-! ## Steps -/

theorem empty : Consistent {} where
  layered := trivial
  order := rfl
  tip := nofun
  apart := nofun

/-- A new commit can be recorded after its parents. -/
theorem commit (hc : h.Consistent) {hash : String} {parents : List String} (hnew : hash ∉ h.order)
    (hparents : ∀ parent ∈ parents, parent ∈ h.order) (hname : h.branches.lookup hash = none) :
    (h.commit hash parents).Consistent where
  layered := ⟨mt hc.mem_nodes.mp hnew, fun parent hparent =>
    hc.mem_nodes.mpr (hparents parent hparent), hc.layered⟩
  order := by
    show (h.order ++ [hash]).reverse = hash :: h.parents.nodes
    rw [List.reverse_append, hc.order]
    rfl
  tip name tip hlookup := List.mem_append_left _ (hc.tip name tip hlookup)
  apart name tip hlookup := by
    intro hmem
    rcases List.mem_append.mp hmem with hmem | hmem
    · exact hc.apart name tip hlookup hmem
    · rw [List.mem_singleton.mp hmem] at hlookup
      rw [Recorded.commit, hname] at hlookup
      cases hlookup

/-- A branch can be pointed at any recorded commit. -/
theorem branch (hc : h.Consistent) {name tip : String} (htip : tip ∈ h.order) (hname : name ∉ h.order) :
    (h.branch name tip).Consistent where
  layered := hc.layered
  order := hc.order
  tip other target hlookup := by
    rw [Recorded.branch, List.lookup_cons] at hlookup
    split at hlookup
    · cases hlookup
      exact htip
    · exact hc.tip other target hlookup
  apart other target hlookup := by
    rw [Recorded.branch, List.lookup_cons] at hlookup
    split at hlookup
    next heq => exact eq_of_beq heq ▸ hname
    next => exact hc.apart other target hlookup

end Consistent

/-! ## A crossed history -/

/-- Two sides that were merged twice, with either one as the first parent, and then these merges. -/
def crossed : Recorded :=
  ((((((({} : Recorded).commit "a" []).commit "b" ["a"]).commit "c" ["a"]).commit "d" ["b", "c"]).commit
    "e" ["c", "b"]).commit "f" ["d", "e"]).branch "m" "f"

theorem consistent_crossed : crossed.Consistent :=
  Consistent.empty
    |>.commit (by decide) (by decide) rfl
    |>.commit (by decide) (by decide) rfl
    |>.commit (by decide) (by decide) rfl
    |>.commit (by decide) (by decide) rfl
    |>.commit (by decide) (by decide) rfl
    |>.commit (by decide) (by decide) rfl
    |>.branch (by decide) (by decide)

end CommitReports.Recorded
