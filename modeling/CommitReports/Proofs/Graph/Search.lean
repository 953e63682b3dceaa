import CommitReports.Proofs.Graph.Reach
import Mathlib.Data.List.Flatten
import Mathlib.Data.List.Perm.Subperm

/-!
# The search for ancestors, step by step

`Graph.visit` keeps a list of nodes that are to be looked at. A step takes the next one off
the list and, if it is not marked yet, marks it and puts its parents on the list in front of
the others (`Search.Step`). In which order the parents are put there is left open, so what
holds of these steps does not depend on it. The list grows as well as shrinks, and nodes may
be on it more than once, on graphs with cycles too.

What a search keeps is `Search.Sound`: the marked nodes are different ones, what is marked or
on the list can be reached, and what a marked node has for a parent is marked or on the list.
To this comes an exact account of the steps. The parents of a node get on the list once, when
it is marked, and each step takes one node off it; so the steps that were made and the nodes
that are on the list are together as many as the marked nodes have parents, and one more
(`Sound.account`). That is what ends the search: there are no more steps than the ancestors
have parents, and one (`Sound.made_le`).

Main results: `Steps.sound` — a search that began at a node is sound after any number of
steps — and `steps_ancestors` — `Graph.ancestors` is where such a search ends.
-/

namespace CommitReports.Graph

/-- How far a search has come. -/
structure Search (ν : Type) where
  /-- The nodes that are marked, the last one first. -/
  marked : List ν
  /-- The nodes that are to be looked at, the next one first. -/
  pending : List ν

variable {ν : Type} [DecidableEq ν] {g : Graph ν}

/-- The nodes that get on the list of a search until these are marked: the first node, and their
parents. -/
def listed (g : Graph ν) (marked : List ν) : Nat :=
  1 + (marked.flatMap g.parentsOf).length

/-- Fewer nodes have fewer parents. -/
theorem listed_le_of_subset {marked others : List ν} (hnodup : marked.Nodup)
    (h : marked ⊆ others) : g.listed marked ≤ g.listed others := by
  obtain ⟨some, hperm, hsublist⟩ := List.subperm_of_subset hnodup h
  have hsame := (hperm.flatMap_right g.parentsOf).length_eq
  have hfewer := (hsublist.flatMap g.parentsOf).length_le
  unfold listed
  omega

namespace Search

/-- A search from a node, before its first step. -/
def start (first : ν) : Search ν := { marked := [], pending := [first] }

/-- One step of a search. -/
inductive Step (g : Graph ν) : Search ν → Search ν → Prop
  | known {node : ν} {marked rest : List ν} (h : node ∈ marked) :
      Step g ⟨marked, node :: rest⟩ ⟨marked, rest⟩
  | new {node : ν} {marked rest parents : List ν} (h : node ∉ marked)
      (hparents : parents.Perm (g.parentsOf node)) :
      Step g ⟨marked, node :: rest⟩ ⟨node :: marked, parents ++ rest⟩

/-- A number of steps. -/
inductive Steps (g : Graph ν) : Nat → Search ν → Search ν → Prop
  | none (s : Search ν) : Steps g 0 s s
  | more {n : Nat} {s s' s'' : Search ν} (first : Step g s s') (others : Steps g n s' s'') :
      Steps g (n + 1) s s''

/-- A search can go on as long as its list is not empty. -/
theorem exists_step {s : Search ν} (h : s.pending ≠ []) : ∃ s', Step g s s' := by
  obtain ⟨marked, pending⟩ := s
  cases pending with
  | nil => exact absurd rfl h
  | cons node rest =>
    by_cases hmarked : node ∈ marked
    · exact ⟨_, .known hmarked⟩
    · exact ⟨_, .new hmarked (.refl _)⟩

/-! ## What a search keeps -/

/-- What holds of a search from a node after a number of steps. -/
structure Sound (g : Graph ν) (first : ν) (made : Nat) (s : Search ν) : Prop where
  nodup : s.marked.Nodup
  reached : ∀ x ∈ s.marked ++ s.pending, g.Reaches first x
  begun : first ∈ s.marked ++ s.pending
  closed : ∀ x ∈ s.marked, ∀ y ∈ g.parentsOf x, y ∈ s.marked ++ s.pending
  account : made + s.pending.length = g.listed s.marked

variable {first : ν} {made : Nat} {s s' : Search ν}

theorem Sound.start (g : Graph ν) (first : ν) : Sound g first 0 (.start first) where
  nodup := List.nodup_nil
  reached x hx := by
    obtain rfl := List.mem_singleton.mp hx
    exact .refl g x
  begun := List.mem_singleton.mpr rfl
  closed := nofun
  account := rfl

theorem Sound.step (hs : Sound g first made s) (h : Step g s s') : Sound g first (made + 1) s' := by
  cases h with
  | @known node marked rest hmarked =>
    -- A node that is marked leaves the list and is still among the marked nodes.
    have hkept : ∀ x ∈ marked ++ node :: rest, x ∈ marked ++ rest := by
      intro x hx
      rcases List.mem_append.mp hx with hx | hx
      · exact List.mem_append_left _ hx
      · rcases List.mem_cons.mp hx with rfl | hx
        · exact List.mem_append_left _ hmarked
        · exact List.mem_append_right _ hx
    have hback : ∀ x ∈ marked ++ rest, x ∈ marked ++ node :: rest := by
      intro x hx
      rcases List.mem_append.mp hx with hx | hx
      · exact List.mem_append_left _ hx
      · exact List.mem_append_right _ (List.mem_cons_of_mem _ hx)
    refine ⟨hs.nodup, fun x hx => hs.reached x (hback x hx), hkept _ hs.begun,
      fun x hx y hy => hkept y (hs.closed x hx y hy), ?_⟩
    have haccount := hs.account
    simp only [List.length_cons] at haccount ⊢
    omega
  | @new node marked rest parents hnew hparents =>
    have hnode : g.Reaches first node :=
      hs.reached node (List.mem_append_right _ List.mem_cons_self)
    have hkept : ∀ x ∈ marked ++ node :: rest, x ∈ node :: marked ++ (parents ++ rest) := by
      intro x hx
      simp only [List.mem_append, List.mem_cons] at hx ⊢
      tauto
    refine ⟨List.nodup_cons.mpr ⟨hnew, hs.nodup⟩, fun x hx => ?_, hkept _ hs.begun,
      fun x hx y hy => ?_, ?_⟩
    · simp only [List.mem_append, List.mem_cons] at hx
      rcases hx with (rfl | hx) | hx | hx
      · exact hnode
      · exact hs.reached x (List.mem_append_left _ hx)
      · exact hnode.trans (.of_parent (hparents.mem_iff.mp hx))
      · exact hs.reached x (List.mem_append_right _ (List.mem_cons_of_mem _ hx))
    · rcases List.mem_cons.mp hx with rfl | hx
      · exact List.mem_append_right _ (List.mem_append_left _ (hparents.mem_iff.mpr hy))
      · exact hkept y (hs.closed x hx y hy)
    · have haccount := hs.account
      have hlength := hparents.length_eq
      simp only [listed, List.length_cons, List.length_append, List.flatMap_cons] at haccount ⊢
      omega

/-- **A search stays sound, step by step.** -/
theorem Steps.sound {n : Nat} (h : Steps g n s s') (hs : Sound g first made s) :
    Sound g first (made + n) s' := by
  induction h generalizing made with
  | none s => exact hs
  | more hstep _ ih =>
    have hsound := ih (hs.step hstep)
    rwa [Nat.add_assoc, Nat.add_comm 1] at hsound

namespace Sound

theorem subset_ancestors (hs : Sound g first made s) : s.marked ⊆ g.ancestors first :=
  fun x hx => mem_ancestors_iff.mpr (hs.reached x (List.mem_append_left _ hx))

/-- There are no more steps than this. -/
theorem made_le (hs : Sound g first made s) : made ≤ g.listed (g.ancestors first) := by
  have haccount := hs.account
  have hle := listed_le_of_subset (g := g) hs.nodup hs.subset_ancestors
  omega

/-- When the list is empty, what can be reached is marked. -/
theorem mem_marked_iff (hs : Sound g first made s) (h : s.pending = []) {x : ν} :
    x ∈ s.marked ↔ g.Reaches first x := by
  have hbegun := hs.begun
  have hclosed := hs.closed
  rw [h, List.append_nil] at hbegun hclosed
  constructor
  · exact fun hx => hs.reached x (List.mem_append_left _ hx)
  · intro hreach
    induction hreach with
    | refl => exact hbegun
    | tail _ hparent ih => exact hclosed _ ih _ hparent

/-- Then there have been that many steps. -/
theorem made_eq (hs : Sound g first made s) (h : s.pending = []) :
    made = g.listed (g.ancestors first) := by
  have haccount := hs.account
  have hall : g.ancestors first ⊆ s.marked :=
    fun x hx => (hs.mem_marked_iff h).mpr (mem_ancestors_iff.mp hx)
  have hle := listed_le_of_subset (g := g) (nodup_ancestors first) hall
  have hmost := hs.made_le
  rw [h, List.length_nil] at haccount
  omega

end Sound

/-! ## The search that is made -/

/-- `Graph.visit` makes steps until its list is empty. -/
theorem exists_steps_visit (marked pending : List ν) :
    ∃ n, Steps g n ⟨marked, pending⟩ ⟨g.visit marked pending, []⟩ := by
  fun_induction visit g marked pending with
  | case1 => exact ⟨0, .none _⟩
  | case2 marked node rest hmarked ih =>
    obtain ⟨n, hsteps⟩ := ih
    exact ⟨n + 1, .more (.known (by simpa using hmarked)) hsteps⟩
  | case3 marked node rest hnew ih =>
    obtain ⟨n, hsteps⟩ := ih
    exact ⟨n + 1, .more (.new (by simpa using hnew) (.refl _)) hsteps⟩

/-- **The ancestors of a node are where a search from it ends.** -/
theorem steps_ancestors (g : Graph ν) (first : ν) :
    Steps g (g.listed (g.ancestors first)) (.start first) ⟨g.ancestors first, []⟩ := by
  obtain ⟨n, hsteps⟩ := exists_steps_visit (g := g) [] [first]
  have hcount := (hsteps.sound (.start g first)).made_eq rfl
  rw [Nat.zero_add] at hcount
  exact hcount ▸ hsteps

end Search

end CommitReports.Graph
