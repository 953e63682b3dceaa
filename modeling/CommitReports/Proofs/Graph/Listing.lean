import CommitReports.Graph.Order
import CommitReports.Proofs.Graph.Reach
import Mathlib.Data.Fintype.Card
import Mathlib.Data.Fintype.EquivFin
import Mathlib.Data.Fintype.Sets
import Mathlib.Order.WellFounded

/-!
# Listings, children first

`Graph.emit` keeps a frontier: of the nodes that are still to be listed, those that
are ready have no child among them, and those that wait have one (`Frontier`). A
step lists one node and keeps the frontier (`Frontier.step`). In a graph without
cycles some node is always ready (`Acyclic.exists_childless`), so the walk ends only
when all nodes are listed, and what is listed never has a child among those that
follow (`emit_spec`).

For `Graph.between` this means: it lists what the one node reaches and the other does
not, each node once, children first, beginning with the node that it starts from.
The order in which ready nodes are due is arbitrary in all of this.
-/

namespace CommitReports.Graph

variable {ν : Type} [DecidableEq ν] {g : Graph ν}

/-! ## Graphs without cycles -/

/-- No node can be reached from its own parents. -/
def Acyclic (g : Graph ν) : Prop := ∀ a b, b ∈ g.parentsOf a → ¬g.Reaches b a

/-- A node with a parent is recorded. -/
theorem mem_nodes_of_parent {a b : ν} (h : b ∈ g.parentsOf a) : a ∈ g.nodes := by
  rw [← isSome_lookup_iff]
  unfold parentsOf at h
  cases hlookup : g.lookup a with
  | some parents => rfl
  | none =>
    rw [hlookup] at h
    cases h

/-- Of some nodes of a graph without cycles, one has no child among them. -/
theorem Acyclic.exists_childless (hg : g.Acyclic) {nodes : List ν} (hne : nodes ≠ []) :
    ∃ node ∈ nodes, ∀ child ∈ nodes, node ∉ g.parentsOf child := by
  -- Proper descent is well-founded on finitely many nodes, so there is a youngest one.
  let younger (a b : { node // node ∈ nodes }) : Prop :=
    Relation.TransGen (fun x y => y ∈ g.parentsOf x) a.1 b.1
  have : IsTrans _ younger := ⟨fun _ _ _ => Relation.TransGen.trans⟩
  have : Std.Irrefl younger := by
    refine ⟨fun a hcycle => ?_⟩
    obtain ⟨b, hparent, hreach⟩ := Relation.TransGen.head'_iff.mp hcycle
    exact hg a.1 b hparent hreach
  have hwf : WellFounded younger := Finite.wellFounded_of_trans_of_irrefl younger
  obtain ⟨first, hfirst⟩ := List.exists_mem_of_ne_nil nodes hne
  obtain ⟨node, -, hyoungest⟩ := hwf.has_min Set.univ ⟨⟨first, hfirst⟩, trivial⟩
  refine ⟨node.1, node.2, fun child hchild hparent => ?_⟩
  exact hyoungest ⟨child, hchild⟩ trivial (Relation.TransGen.single hparent)

/-! ## The frontier of a walk -/

theorem hasChildIn_iff {nodes : List ν} {node : ν} :
    g.hasChildIn nodes node = true ↔ ∃ child ∈ nodes, node ∈ g.parentsOf child := by
  simp [hasChildIn]

theorem hasChildIn_eq_false_iff {nodes : List ν} {node : ν} :
    g.hasChildIn nodes node = false ↔ ∀ child ∈ nodes, node ∉ g.parentsOf child := by
  rw [Bool.eq_false_iff, Ne, hasChildIn_iff]
  simp

/-- Of the nodes that are still to be listed, those that are ready have no child among them, and
those that wait have one. -/
structure Frontier (g : Graph ν) (ready waiting : List ν) : Prop where
  nodup : (ready ++ waiting).Nodup
  childless : ∀ node ∈ ready, ∀ child ∈ ready ++ waiting, node ∉ g.parentsOf child
  held : ∀ node ∈ waiting, ∃ child ∈ ready ++ waiting, node ∈ g.parentsOf child

/-- A list without its repetitions holds nothing twice. -/
theorem nodup_eraseDups : ∀ l : List ν, l.eraseDups.Nodup
  | [] => List.nodup_nil
  | node :: rest => by
    rw [List.eraseDups_cons, List.nodup_cons]
    exact ⟨by simp [List.mem_eraseDups], nodup_eraseDups _⟩
  termination_by l => l.length
  decreasing_by exact Nat.lt_succ_of_le (List.length_filter_le _ _)

/-- The waiting nodes that a node was the last child of. -/
def freed (g : Graph ν) (node : ν) (ready : Array ν) (waiting : List ν) : List ν :=
  (g.parentsOf node).eraseDups.filter fun parent =>
    waiting.contains parent && !g.hasChildIn (ready.toList ++ waiting) parent

theorem mem_freed {node x : ν} {ready : Array ν} {waiting : List ν} :
    x ∈ g.freed node ready waiting ↔ x ∈ g.parentsOf node ∧ x ∈ waiting ∧
      ∀ child ∈ ready.toList ++ waiting, x ∉ g.parentsOf child := by
  unfold freed
  rw [List.mem_filter, List.mem_eraseDups, Bool.and_eq_true, Bool.not_eq_true',
    hasChildIn_eq_false_iff, List.contains_iff_mem]

/-- What is freed is what does not wait any longer. -/
theorem freed_append_perm {node : ν} {ready : Array ν} {waiting : List ν} (h : waiting.Nodup) :
    (g.freed node ready waiting ++
      waiting.filter fun other => !(g.freed node ready waiting).contains other).Perm waiting := by
  have hfreed : (g.freed node ready waiting).Nodup := (nodup_eraseDups _).filter _
  have hdisjoint : ∀ x ∈ g.freed node ready waiting,
      ∀ y ∈ waiting.filter fun other => !(g.freed node ready waiting).contains other, x ≠ y := by
    rintro x hx _ hy rfl
    simp [hx] at hy
  refine (List.perm_ext_iff_of_nodup
    (List.nodup_append.mpr ⟨hfreed, h.filter _, hdisjoint⟩) h).mpr fun x => ?_
  rw [List.mem_append, List.mem_filter]
  by_cases hx : x ∈ g.freed node ready waiting
  · simp [hx, (mem_freed.mp hx).2.1]
  · simp [hx]

variable {due : ν → ν → Bool}

/-- Listing one node that is ready keeps the frontier; the others are still to be listed. -/
theorem Frontier.step {ready rest : Array ν} {waiting : List ν} {node : ν}
    (h : g.Frontier ready.toList waiting) (hpop : Heap.pop? due ready = some (node, rest)) :
    let freed := g.freed node rest waiting
    let ready' := freed.foldl (Heap.push due) rest
    let waiting' := waiting.filter fun other => !freed.contains other
    g.Frontier ready'.toList waiting' ∧
      (ready'.toList ++ waiting').Perm (rest.toList ++ waiting) := by
  intro freed ready' waiting'
  have hpopped : (ready.toList ++ waiting).Perm (node :: (rest.toList ++ waiting)) :=
    (Heap.pop?_perm due hpop).append_right waiting
  obtain ⟨-, hrest⟩ := List.nodup_cons.mp (hpopped.nodup_iff.mp h.nodup)
  have hpushed : ready'.toList.Perm (rest.toList ++ freed) := Heap.foldl_push_perm due freed rest
  have hwaiting : waiting.Nodup := (List.nodup_append.mp hrest).2.1
  have hleft : (ready'.toList ++ waiting').Perm (rest.toList ++ waiting) :=
    calc (ready'.toList ++ waiting').Perm ((rest.toList ++ freed) ++ waiting') :=
          hpushed.append_right waiting'
      _ = rest.toList ++ (freed ++ waiting') := List.append_assoc ..
      List.Perm _ (rest.toList ++ waiting) := (freed_append_perm hwaiting).append_left _
  refine ⟨⟨hleft.nodup_iff.mpr hrest, ?_, ?_⟩, hleft⟩
  · -- A ready node was ready before, or has just lost its last child.
    intro x hx child hchild
    have hchild : child ∈ rest.toList ++ waiting := hleft.mem_iff.mp hchild
    rcases List.mem_append.mp (hpushed.mem_iff.mp hx) with hx | hx
    · have hbefore : x ∈ ready.toList :=
        (Heap.pop?_perm due hpop).mem_iff.mpr (List.mem_cons_of_mem _ hx)
      exact h.childless x hbefore child (hpopped.mem_iff.mpr (List.mem_cons_of_mem _ hchild))
    · exact (mem_freed.mp hx).2.2 child hchild
  · -- A node that still waits has another child than the one that is listed now.
    intro x hstays
    obtain ⟨hx, hnot⟩ := List.mem_filter.mp hstays
    have hnot : x ∉ freed := by simpa using hnot
    obtain ⟨child, hchild, hparent⟩ := h.held x hx
    by_contra hlast
    have hnone : ∀ child ∈ rest.toList ++ waiting, x ∉ g.parentsOf child :=
      fun other hother hparent => hlast ⟨other, hleft.mem_iff.mpr hother, hparent⟩
    rcases List.mem_cons.mp (hpopped.mem_iff.mp hchild) with rfl | hchild
    · exact hnot (mem_freed.mpr ⟨hparent, hx, hnone⟩)
    · exact hnone child hchild hparent

/-! ## The whole walk -/

/-- No node of a list stands before one of its children. -/
def ChildrenFirst (g : Graph ν) (listing : List ν) : Prop :=
  listing.Pairwise fun earlier later => earlier ∉ g.parentsOf later

/-- Every node is listed once, and after its children. -/
theorem emit_spec (hg : g.Acyclic) : ∀ (fuel : Nat) {ready : Array ν} {waiting : List ν},
    g.Frontier ready.toList waiting → (ready.toList ++ waiting).length ≤ fuel →
      (g.emit due fuel ready waiting).Perm (ready.toList ++ waiting) ∧
        g.ChildrenFirst (g.emit due fuel ready waiting) := by
  intro fuel
  induction fuel with
  | zero =>
    intro ready waiting _ hfuel
    rw [List.eq_nil_of_length_eq_zero (Nat.le_zero.mp hfuel)]
    exact ⟨.refl _, .nil⟩
  | succ fuel ih =>
    intro ready waiting hfrontier hfuel
    rw [emit]
    split
    next hpop =>
      -- Where nothing is ready, nothing waits: some node would have no child.
      have hready : ready.toList = [] := Heap.pop?_eq_none due hpop
      rw [hready, List.nil_append]
      cases waiting with
      | nil => exact ⟨.refl _, .nil⟩
      | cons first others =>
        obtain ⟨node, hnode, hchildless⟩ := hg.exists_childless (List.cons_ne_nil first others)
        obtain ⟨child, hchild, hparent⟩ := hfrontier.held node hnode
        rw [hready] at hchild
        exact absurd hparent (hchildless child hchild)
    next node rest hpop =>
      obtain ⟨hnext, hleft⟩ := hfrontier.step hpop
      have hpopped : (ready.toList ++ waiting).Perm (node :: (rest.toList ++ waiting)) :=
        (Heap.pop?_perm due hpop).append_right waiting
      have hlength := hpopped.length_eq
      rw [List.length_cons] at hlength
      obtain ⟨hperm, hordered⟩ := ih hnext (by rw [hleft.length_eq]; omega)
      have hrest := hperm.trans hleft
      refine ⟨(hrest.cons node).trans hpopped.symm, List.pairwise_cons.mpr ⟨?_, hordered⟩⟩
      intro later hlater
      have hready : node ∈ ready.toList := (Heap.pop?_perm due hpop).mem_iff.mpr List.mem_cons_self
      exact hfrontier.childless node hready later
        (hpopped.mem_iff.mpr (List.mem_cons_of_mem _ (hrest.mem_iff.mp hlater)))

/-- Whatever the graph is, no other nodes are listed. -/
theorem mem_of_mem_emit (fuel : Nat) : ∀ {ready : Array ν} {waiting : List ν} {node : ν},
    node ∈ g.emit due fuel ready waiting → node ∈ ready.toList ++ waiting := by
  induction fuel with
  | zero => exact fun h => nomatch h
  | succ fuel ih =>
    intro ready waiting node h
    rw [emit] at h
    split at h
    next => cases h
    next first rest hpop =>
      have hready : ∀ {x}, x ∈ ready.toList ↔ x = first ∨ x ∈ rest.toList := by
        intro x
        rw [(Heap.pop?_perm due hpop).mem_iff, List.mem_cons]
      rcases List.mem_cons.mp h with rfl | hlater
      · exact List.mem_append_left _ (hready.mpr (.inl rfl))
      · -- What is listed later was ready, or was waiting, or was freed from waiting.
        rcases List.mem_append.mp (ih hlater) with hpushed | hstays
        · rcases List.mem_append.mp ((Heap.foldl_push_perm due _ rest).mem_iff.mp hpushed) with hrest | hfreed
          · exact List.mem_append_left _ (hready.mpr (.inr hrest))
          · exact List.mem_append_right _ (mem_freed.mp hfreed).2.1
        · exact List.mem_append_right _ (List.mem_filter.mp hstays).1

theorem mem_of_mem_order {nodes : List ν} {node : ν} (h : node ∈ g.order due nodes) :
    node ∈ nodes := by
  rcases List.mem_append.mp (mem_of_mem_emit nodes.length h) with hready | hwaiting
  · have hpushed := (Heap.foldl_push_perm due (nodes.filter fun node => !g.hasChildIn nodes node)
      #[]).mem_iff.mp hready
    exact (List.mem_filter.mp hpushed).1
  · exact (List.mem_filter.mp hwaiting).1

/-- The given nodes are listed, each once, and after its children. -/
theorem order_spec (hg : g.Acyclic) {nodes : List ν} (hnodup : nodes.Nodup) :
    (g.order due nodes).Perm nodes ∧ g.ChildrenFirst (g.order due nodes) := by
  let ready := nodes.filter fun node => !g.hasChildIn nodes node
  let waiting := nodes.filter fun node => g.hasChildIn nodes node
  have hpushed : (ready.foldl (Heap.push due) #[]).toList.Perm ready :=
    Heap.foldl_push_perm due ready #[]
  have hall : ((ready.foldl (Heap.push due) #[]).toList ++ waiting).Perm nodes :=
    (hpushed.append_right waiting).trans
      (List.perm_append_comm.trans (List.filter_append_perm _ nodes))
  have hfrontier : g.Frontier (ready.foldl (Heap.push due) #[]).toList waiting := by
    refine ⟨hall.nodup_iff.mpr hnodup, fun node hnode child hchild => ?_, fun node hnode => ?_⟩
    · obtain ⟨-, hno⟩ := List.mem_filter.mp (hpushed.mem_iff.mp hnode)
      rw [Bool.not_eq_true', hasChildIn_eq_false_iff] at hno
      exact hno child (hall.mem_iff.mp hchild)
    · obtain ⟨child, hchild, hparent⟩ := hasChildIn_iff.mp (List.mem_filter.mp hnode).2
      exact ⟨child, hall.mem_iff.mpr hchild, hparent⟩
  have hlisted : (g.order due nodes).Perm _ ∧ g.ChildrenFirst (g.order due nodes) :=
    emit_spec hg nodes.length hfrontier hall.length_eq.le
  exact ⟨hlisted.1.trans hall, hlisted.2⟩

/-! ## What lies between two nodes -/

theorem mem_difference {since upto node : ν} :
    node ∈ g.difference since upto ↔ g.Reaches upto node ∧ ¬g.Reaches since node := by
  simp [difference, mem_ancestors_iff]

theorem nodup_difference (since upto : ν) : (g.difference since upto).Nodup :=
  (List.nodup_reverse.mpr (nodup_ancestors upto)).filter _

/-- What lies between two nodes is what the one reaches and the other does not. -/
theorem mem_between (hg : g.Acyclic) {since upto node : ν} :
    node ∈ g.between due since upto ↔ g.Reaches upto node ∧ ¬g.Reaches since node := by
  rw [← mem_difference]
  exact (order_spec hg (nodup_difference since upto)).1.mem_iff

/-- Also in a graph with cycles no more than that lies between two nodes. -/
theorem reaches_of_mem_between {since upto node : ν} (h : node ∈ g.between due since upto) :
    g.Reaches upto node ∧ ¬g.Reaches since node :=
  mem_difference.mp (mem_of_mem_order h)

/-- Nothing lies between a node and itself. -/
theorem between_self (node : ν) : g.between due node node = [] := by
  rw [List.eq_nil_iff_forall_not_mem]
  intro other h
  obtain ⟨hreach, hnot⟩ := reaches_of_mem_between h
  exact hnot hreach

theorem nodup_between (hg : g.Acyclic) (since upto : ν) : (g.between due since upto).Nodup :=
  (order_spec hg (nodup_difference since upto)).1.nodup_iff.mpr (nodup_difference since upto)

theorem childrenFirst_between (hg : g.Acyclic) (since upto : ν) :
    g.ChildrenFirst (g.between due since upto) :=
  (order_spec hg (nodup_difference since upto)).2

/-- Nothing lies between two nodes if and only if the first one reaches the second one. -/
theorem between_eq_nil_iff (hg : g.Acyclic) {since upto : ν} :
    g.between due since upto = [] ↔ g.Reaches since upto := by
  rw [List.eq_nil_iff_forall_not_mem]
  constructor
  · intro hnone
    by_contra hsince
    exact hnone upto ((mem_between hg).mpr ⟨.refl g upto, hsince⟩)
  · intro hsince node hnode
    obtain ⟨hreach, hhidden⟩ := (mem_between hg).mp hnode
    exact hhidden (hsince.trans hreach)

/-- What lies between two nodes begins with the second one. -/
theorem head?_between (hg : g.Acyclic) {since upto : ν} (hne : g.between due since upto ≠ []) :
    (g.between due since upto).head? = some upto := by
  have hordered : g.ChildrenFirst (g.between due since upto) := childrenFirst_between hg since upto
  have hmem : ∀ node, node ∈ g.between due since upto ↔
      g.Reaches upto node ∧ ¬g.Reaches since node := fun node => mem_between hg
  cases hlisting : g.between due since upto with
  | nil => exact absurd hlisting hne
  | cons first others =>
    rw [hlisting] at hordered hmem
    obtain ⟨hreach, hhidden⟩ := (hmem first).mp List.mem_cons_self
    -- A first node other than the start has a child between the two, which would follow it.
    rcases Relation.ReflTransGen.cases_tail hreach with rfl | ⟨child, hchild, hparent⟩
    · rfl
    · have hlisted : child ∈ first :: others :=
        (hmem child).mpr ⟨hchild, fun hsince => hhidden (hsince.trans (.of_parent hparent))⟩
      rcases List.mem_cons.mp hlisted with rfl | hlater
      · exact absurd (.refl g child) (hg child child hparent)
      · exact absurd hparent ((List.pairwise_cons.mp hordered).1 child hlater)

end CommitReports.Graph
