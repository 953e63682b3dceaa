/-!
# Graphs of commits

A graph lists nodes with their parents; the first record of a node counts. The
nodes that can be reached from one are found by `visit`, which ends on every
graph, cycles and missing parents included: each step either marks a recorded
node for the first time or takes one node off the list.
-/

namespace CommitReports

/-- Nodes with their parents, the record that counts first. -/
abbrev Graph (ν : Type) := List (ν × List ν)

namespace Graph

private theorem length_filter_le_of_imp {α : Type} {p q : α → Bool} (himp : ∀ x, p x = true → q x = true) :
    ∀ l : List α, (l.filter p).length ≤ (l.filter q).length := by
  intro l
  induction l with
  | nil => exact Nat.le_refl _
  | cons x xs ih =>
    by_cases hp : p x = true
    · simp [hp, himp x hp, ih]
    · by_cases hq : q x = true
      · simp only [List.filter_cons, hp, hq]; simp; omega
      · simp [hp, hq, ih]

private theorem length_filter_lt_of_imp {α : Type} {p q : α → Bool} (himp : ∀ x, p x = true → q x = true)
    {y : α} (hp : p y = false) (hq : q y = true) :
    ∀ l : List α, y ∈ l → (l.filter p).length < (l.filter q).length := by
  intro l
  induction l with
  | nil => intro h; simp at h
  | cons x xs ih =>
    intro h
    rcases List.mem_cons.1 h with rfl | h
    · have := length_filter_le_of_imp himp xs
      simp [hp, hq]; omega
    · have := ih h
      by_cases hpx : p x = true
      · simp [hpx, himp x hpx, this]
      · by_cases hqx : q x = true
        · simp only [List.filter_cons, hpx, hqx]; simp; omega
        · simp [hpx, hqx, this]

variable {ν : Type} [DecidableEq ν]

/-- The parents of a node; none for one that is not recorded. -/
def parentsOf (g : Graph ν) (node : ν) : List ν := (g.lookup node).getD []

/-- The recorded nodes that are not marked. -/
def unmarked (g : Graph ν) (marked : List ν) : List ν :=
  (g.map (·.1)).filter fun node => !marked.contains node

private theorem lookup_eq_none_of_not_mem {node : ν} :
    ∀ {g : List (ν × List ν)}, node ∉ g.map (·.1) → g.lookup node = none := by
  intro g
  induction g with
  | nil => intro _; rfl
  | cons r rs ih =>
    obtain ⟨k, ps⟩ := r
    intro h
    simp only [List.map_cons, List.mem_cons, not_or] at h
    have hne : (node == k) = false := by simpa using h.1
    rw [List.lookup_cons, hne]
    exact ih h.2

/-- Marking one more node leaves no more unmarked. -/
theorem length_unmarked_le (g : Graph ν) (node : ν) (marked : List ν) :
    (g.unmarked (node :: marked)).length ≤ (g.unmarked marked).length :=
  length_filter_le_of_imp (fun x hx => by simp_all) _

/-- Marking a recorded node for the first time leaves fewer unmarked. -/
theorem length_unmarked_lt (g : Graph ν) {node : ν} {marked : List ν}
    (hnew : marked.contains node = false) (hrec : node ∈ g.map (·.1)) :
    (g.unmarked (node :: marked)).length < (g.unmarked marked).length :=
  length_filter_lt_of_imp (fun x hx => by simp_all) (y := node) (by simp) (by simp_all) _ hrec

/-- Marks every node that can be reached from those of a list, by way of nodes that are not marked
yet. The last node marked stands first. -/
def visit (g : Graph ν) (marked : List ν) : List ν → List ν
  | [] => marked
  | node :: rest =>
    if marked.contains node then visit g marked rest
    else visit g (node :: marked) (g.parentsOf node ++ rest)
  termination_by pending => ((g.unmarked marked).length, pending.length)
  decreasing_by
    · exact Prod.Lex.right _ (by simp)
    · rename_i hnew
      by_cases hrec : node ∈ g.map (·.1)
      · exact Prod.Lex.left _ _ (g.length_unmarked_lt (by simpa using hnew) hrec)
      · have hnone : g.parentsOf node = [] := by
          simp [parentsOf, lookup_eq_none_of_not_mem hrec]
        rcases Nat.lt_or_eq_of_le (g.length_unmarked_le node marked) with hlt | heq
        · exact Prod.Lex.left _ _ hlt
        · rw [heq, hnone]
          exact Prod.Lex.right _ (by simp)

/-- The nodes that can be reached from one, itself included. -/
def ancestors (g : Graph ν) (node : ν) : List ν := g.visit [] [node]

end Graph

end CommitReports
