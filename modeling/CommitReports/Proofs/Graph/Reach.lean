import CommitReports.Graph
import Mathlib.Logic.Relation

/-!
# Reachability in a graph

A node is reached from another by following parents. `Graph.visit` marks exactly
what can be reached: what it marks was marked before or can be reached from the
list (`mem_visit`), and if the parents of the marked nodes are marked or on the
list, then in the end they all are marked (`visit_closed`). So the ancestors of a
node are the nodes that it reaches (`mem_ancestors_iff`).

A graph is *layered* if each node is recorded once and after its parents. What a
node of such a graph reaches was recorded before it (`Layered.mem_of_reaches`),
so recording one more node changes nothing for those that are there
(`Layered.reaches_record`).
-/

namespace CommitReports.Graph

variable {ν : Type} [DecidableEq ν] {g : Graph ν} {a b : ν}

/-- A node can be reached from another by following parents, in any number of steps. -/
def Reaches (g : Graph ν) : ν → ν → Prop := Relation.ReflTransGen fun a b => b ∈ g.parentsOf a

theorem Reaches.refl (g : Graph ν) (a : ν) : g.Reaches a a := Relation.ReflTransGen.refl

theorem Reaches.trans {c : ν} (hab : g.Reaches a b) (hbc : g.Reaches b c) : g.Reaches a c :=
  Relation.ReflTransGen.trans hab hbc

theorem Reaches.of_parent (h : b ∈ g.parentsOf a) : g.Reaches a b := Relation.ReflTransGen.single h

/-- What is marked was marked before, or can be reached from the list. -/
theorem mem_visit {x : ν} {marked pending : List ν} (h : x ∈ g.visit marked pending) :
    x ∈ marked ∨ ∃ p ∈ pending, g.Reaches p x := by
  fun_induction visit g marked pending with
  | case1 => exact .inl h
  | case2 marked node rest hmarked ih =>
    rcases ih h with hx | ⟨p, hp, hreach⟩
    · exact .inl hx
    · exact .inr ⟨p, List.mem_cons_of_mem _ hp, hreach⟩
  | case3 marked node rest hnew ih =>
    rcases ih h with hx | ⟨p, hp, hreach⟩
    · rcases List.mem_cons.mp hx with rfl | hx
      · exact .inr ⟨x, List.mem_cons_self, .refl g x⟩
      · exact .inl hx
    · rcases List.mem_append.mp hp with hp | hp
      · exact .inr ⟨node, List.mem_cons_self, (Reaches.of_parent hp).trans hreach⟩
      · exact .inr ⟨p, List.mem_cons_of_mem _ hp, hreach⟩

/-- What was marked stays marked, and the whole list gets marked. -/
theorem subset_visit (marked pending : List ν) :
    marked ⊆ g.visit marked pending ∧ pending ⊆ g.visit marked pending := by
  fun_induction visit g marked pending with
  | case1 => exact ⟨fun _ h => h, nofun⟩
  | case2 marked node rest hmarked ih =>
    refine ⟨ih.1, List.cons_subset.mpr ⟨ih.1 ?_, ih.2⟩⟩
    simpa using hmarked
  | case3 marked node rest hnew ih =>
    refine ⟨fun x hx => ih.1 (List.mem_cons_of_mem _ hx), ?_⟩
    refine List.cons_subset.mpr ⟨ih.1 List.mem_cons_self, fun x hx => ?_⟩
    exact ih.2 (List.mem_append_right _ hx)

/-- If the parents of what is marked are marked or on the list, they all get marked. -/
theorem visit_closed {marked pending : List ν}
    (h : ∀ x ∈ marked, ∀ y ∈ g.parentsOf x, y ∈ marked ∨ y ∈ pending) :
    ∀ x ∈ g.visit marked pending, ∀ y ∈ g.parentsOf x, y ∈ g.visit marked pending := by
  fun_induction visit g marked pending with
  | case1 =>
    intro x hx y hy
    exact (h x hx y hy).elim id nofun
  | case2 marked node rest hmarked ih =>
    -- A marked node leaves the list, and its parents need not be on it.
    refine ih fun x hx y hy => ?_
    rcases h x hx y hy with hy | hy
    · exact .inl hy
    · rcases List.mem_cons.mp hy with rfl | hy
      · exact .inl (by simpa using hmarked)
      · exact .inr hy
  | case3 marked node rest hnew ih =>
    -- A node that gets marked puts its parents on the list.
    refine ih fun x hx y hy => ?_
    rcases List.mem_cons.mp hx with rfl | hx
    · exact .inr (List.mem_append_left _ hy)
    · rcases h x hx y hy with hy | hy
      · exact .inl (List.mem_cons_of_mem _ hy)
      · rcases List.mem_cons.mp hy with rfl | hy
        · exact .inl List.mem_cons_self
        · exact .inr (List.mem_append_right _ hy)

/-- **The ancestors of a node are the nodes that it reaches.** -/
theorem mem_ancestors_iff : b ∈ g.ancestors a ↔ g.Reaches a b := by
  constructor
  · intro h
    rcases mem_visit h with h | ⟨p, hp, hreach⟩
    · cases h
    · obtain rfl := List.mem_singleton.mp hp
      exact hreach
  · intro h
    induction h with
    | refl => exact (subset_visit [] [a]).2 List.mem_cons_self
    | tail _ hparent ih => exact visit_closed nofun _ ih _ hparent

/-- No node is marked twice. -/
theorem nodup_visit {marked pending : List ν} (h : marked.Nodup) :
    (g.visit marked pending).Nodup := by
  fun_induction visit g marked pending with
  | case1 => exact h
  | case2 marked node rest hmarked ih => exact ih h
  | case3 marked node rest hnew ih => exact ih (List.nodup_cons.mpr ⟨by simpa using hnew, h⟩)

theorem nodup_ancestors (node : ν) : (g.ancestors node).Nodup := nodup_visit List.nodup_nil

/-! ## Layered graphs -/

omit [DecidableEq ν] in
/-- The nodes that are recorded, the latest first. -/
def nodes (g : Graph ν) : List ν := g.map (·.1)

theorem isSome_lookup_iff {node : ν} : (g.lookup node).isSome = true ↔ node ∈ g.nodes := by
  rw [List.lookup_isSome_iff, nodes, List.mem_map]
  constructor
  · exact fun ⟨record, hrecord, heq⟩ => ⟨record, hrecord, (eq_of_beq heq).symm⟩
  · exact fun ⟨record, hrecord, heq⟩ => ⟨record, hrecord, beq_iff_eq.mpr heq.symm⟩

/-- Each node is recorded once, and after its parents. -/
def Layered : Graph ν → Prop
  | [] => True
  | (node, parents) :: older =>
    node ∉ nodes older ∧ (∀ p ∈ parents, p ∈ nodes older) ∧ Layered older

/-- What is not recorded reaches nothing but itself. -/
theorem eq_of_reaches (ha : a ∉ g.nodes) (hab : g.Reaches a b) : b = a := by
  rcases hab.cases_head with rfl | ⟨p, hparent, -⟩
  · rfl
  · have hnone : g.lookup a = none :=
      Option.not_isSome_iff_eq_none.mp fun hsome => ha (isSome_lookup_iff.mp hsome)
    simp [parentsOf, hnone] at hparent

theorem parentsOf_cons_self (node : ν) (parents : List ν) (older : Graph ν) :
    Graph.parentsOf ((node, parents) :: older) node = parents := by
  simp [parentsOf]

theorem parentsOf_cons_of_ne {node x : ν} (parents : List ν) (older : Graph ν) (h : x ≠ node) :
    Graph.parentsOf ((node, parents) :: older) x = older.parentsOf x := by
  have hne : (x == node) = false := by simpa using h
  simp [parentsOf, List.lookup_cons, hne]

namespace Layered

omit [DecidableEq ν] in
theorem nodup_nodes : ∀ {g : Graph ν}, g.Layered → g.nodes.Nodup := by
  intro g
  induction g with
  | nil => exact fun _ => List.nodup_nil
  | cons record older ih => exact fun h => List.nodup_cons.mpr ⟨h.1, ih h.2.2⟩

/-- The parents of a recorded node are recorded. -/
theorem mem_of_parent : ∀ {g : Graph ν}, g.Layered → ∀ {x y : ν}, x ∈ g.nodes →
    y ∈ g.parentsOf x → y ∈ g.nodes := by
  intro g
  induction g with
  | nil => exact fun _ _ _ hx => nomatch hx
  | cons record older ih =>
    obtain ⟨node, parents⟩ := record
    rintro ⟨hnew, hparents, hlayered⟩ x y hx hy
    by_cases heq : x = node
    · subst heq
      rw [parentsOf_cons_self] at hy
      exact List.mem_cons_of_mem _ (hparents y hy)
    · rw [parentsOf_cons_of_ne _ _ heq] at hy
      have hx' : x ∈ nodes older := (List.mem_cons.mp hx).resolve_left heq
      exact List.mem_cons_of_mem _ (ih hlayered hx' hy)

/-- What a recorded node reaches is recorded. -/
theorem mem_of_reaches (h : g.Layered) (ha : a ∈ g.nodes) (hab : g.Reaches a b) : b ∈ g.nodes := by
  induction hab with
  | refl => exact ha
  | tail _ hparent ih => exact h.mem_of_parent ih hparent

/-- One more record changes nothing for the nodes that are there. -/
theorem reaches_record {node : ν} {parents : List ν} (h : Layered ((node, parents) :: g))
    (ha : a ∈ g.nodes) : Graph.Reaches ((node, parents) :: g) a b ↔ g.Reaches a b := by
  obtain ⟨hnew, -, hlayered⟩ := h
  have hne : ∀ {x}, x ∈ g.nodes → x ≠ node := fun hx heq => hnew (heq ▸ hx)
  constructor
  · intro hab
    -- On the way only nodes are met that were there before, and these have kept their parents.
    suffices hboth : g.Reaches a b ∧ b ∈ g.nodes from hboth.1
    induction hab with
    | refl => exact ⟨.refl g a, ha⟩
    | tail _ hparent ih =>
      rw [parentsOf_cons_of_ne _ _ (hne ih.2)] at hparent
      exact ⟨ih.1.trans (.of_parent hparent), hlayered.mem_of_parent ih.2 hparent⟩
  · intro hab
    induction hab with
    | refl => exact .refl _ a
    | tail hreach hparent ih =>
      refine ih.trans (.of_parent ?_)
      rwa [parentsOf_cons_of_ne _ _ (hne (hlayered.mem_of_reaches ha hreach))]

/-- No node is reached by one that was recorded before it. -/
theorem pairwise_nodes : ∀ {g : Graph ν}, g.Layered →
    g.nodes.Pairwise fun a b => ¬g.Reaches b a := by
  intro g
  induction g with
  | nil => exact fun _ => .nil
  | cons record older ih =>
    obtain ⟨node, parents⟩ := record
    intro h
    obtain ⟨hnew, -, hlayered⟩ := id h
    refine List.pairwise_cons.mpr ⟨fun b hb hreach => ?_, (ih hlayered).imp_of_mem ?_⟩
    · exact hnew (hlayered.mem_of_reaches hb ((h.reaches_record hb).mp hreach))
    · exact fun _ hb hnot hreach => hnot ((h.reaches_record hb).mp hreach)

end Layered

end CommitReports.Graph
