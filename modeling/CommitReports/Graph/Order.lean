import CommitReports.Graph
import CommitReports.Heap

/-!
# Listing nodes, children first

`Graph.order` lists nodes of a graph so that no node stands before one of its
children. A node is ready once its last child is listed; of the nodes that are
ready, the one that is due first comes next. `Graph.between` lists in this way
what can be reached from one node and not from another.
-/

namespace CommitReports.Graph

variable {ν : Type} [DecidableEq ν]

/-- Whether a node has a child among some nodes. -/
def hasChildIn (g : Graph ν) (nodes : List ν) (node : ν) : Bool :=
  nodes.any fun child => (g.parentsOf child).contains node

/-- Lists the nodes that are ready, and those that wait for them. -/
def emit (g : Graph ν) (due : ν → ν → Bool) : (fuel : Nat) → (ready : Array ν) →
    (waiting : List ν) → List ν
  | 0, _, _ => []
  | fuel + 1, ready, waiting =>
    match Heap.pop? due ready with
    | none => []
    | some (node, ready) =>
      let freed := (g.parentsOf node).eraseDups.filter fun parent =>
        waiting.contains parent && !g.hasChildIn (ready.toList ++ waiting) parent
      node :: emit g due fuel (freed.foldl (Heap.push due) ready)
        (waiting.filter fun other => !freed.contains other)

/-- The given nodes, children before parents. -/
def order (g : Graph ν) (due : ν → ν → Bool) (nodes : List ν) : List ν :=
  let ready := nodes.filter fun node => !g.hasChildIn nodes node
  g.emit due nodes.length (ready.foldl (Heap.push due) #[])
    (nodes.filter fun node => g.hasChildIn nodes node)

/-- What can be reached from `upto` and not from `since`. -/
def difference (g : Graph ν) (since upto : ν) : List ν :=
  let known := g.ancestors since
  (g.ancestors upto).reverse.filter fun node => !known.contains node

/-- What can be reached from `upto` and not from `since`, children before parents. -/
def between (g : Graph ν) (due : ν → ν → Bool) (since upto : ν) : List ν :=
  g.order due (g.difference since upto)

end CommitReports.Graph
