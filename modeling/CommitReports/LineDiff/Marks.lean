import CommitReports.LineDiff.Midpoint

/-!
# Which lines differ

Each of two sequences gets marks for the items that are not in the other one.
Items at both ends that are the same are left alone. Of the rest, an item that
the other side does not have at all is marked at once, and so is one that it has
very often, if it stands among such items. What is left is compared exactly, by
cutting it in two at points on a shortest way.
-/

namespace CommitReports.LineDiff

/-! ## Items that need no comparison -/

/-- How an item stands to the other side. -/
inductive Standing where
  /-- The other side does not have it. -/
  | absent
  /-- The other side has it. -/
  | present
  /-- The other side has it very often. -/
  | frequent
  deriving DecidableEq, Repr

/-- A power of two near the square root of a number. -/
def roughRoot (n : Nat) : Nat := if n = 0 then 1 else 2 * roughRoot (n / 4)
  termination_by n

/-- An item that occurs this often is frequent on any side. -/
def maxFrequency : Nat := 1024

/-- How many items at the front of two sequences are the same. -/
def commonFront (old new : Array Nat) : Nat :=
  ((old.toList.zip new.toList).takeWhile fun (a, b) => a == b).length

/-- How many items at the end of two sequences are the same, after those at the front. -/
def commonEnd (old new : Array Nat) : Nat :=
  let front := commonFront old new
  (((old.toList.drop front).reverse.zip (new.toList.drop front).reverse).takeWhile
    fun (a, b) => a == b).length

/-- How the items at the given positions stand to the other side. -/
def standings (own other : Array Nat) (first last : Nat) : Array Standing :=
  let many := min (roughRoot own.size) maxFrequency
  (Array.range own.size).map fun i =>
    if i < first ∨ last ≤ i then .absent
    else
      let n := other.count (own.getD i 0)
      if n = 0 then .absent else if many ≤ n then .frequent else .present

/-- How far around a frequent item its neighbours are looked at. -/
def window : Nat := 100

/-- A frequent item is dropped if fewer than one in this many of its neighbours are frequent. -/
def crowd : Nat := 4

/-- Counts absent and frequent items up to the first present one. -/
def countRun (run : List Standing) : Nat × Nat :=
  (run.takeWhile (· != .present)).foldl (fun (absent, frequent) standing =>
    if standing = .absent then (absent + 1, frequent) else (absent, frequent + 1)) (0, 0)

/-- Whether a frequent item stands in a run of items that the other side does not have. -/
def isLost (all : Array Standing) (first last i : Nat) : Bool :=
  let start := max first (i - window)
  let stop := min last (i + window + 1)
  let before := countRun (all.toList.drop start |>.take (i - start)).reverse
  let behind := countRun (all.toList.drop (i + 1) |>.take (stop - (i + 1)))
  let absent := before.1 + behind.1
  let frequent := (before.2 + 1) + (behind.2 + 1)
  before.1 != 0 && behind.1 != 0 && decide (frequent * crowd < frequent + absent)

/-- The positions of the items that are compared exactly. -/
def compared (own other : Array Nat) (first last : Nat) : Array Nat :=
  let all := standings own other first last
  ((List.range (last - first)).filterMap fun n =>
    let i := first + n
    match all.getD i .absent with
    | .absent => none
    | .present => some i
    | .frequent => if isLost all first last i then none else some i).toArray

/-! ## The comparison -/

/-- The positions from one number up to another. -/
def positions (start stop : Int) : List Nat :=
  (List.range (stop - start).toNat).map fun n => start.toNat + n

/-- The items of a box that are on one side only: positions on the old side and on the new. -/
def differing (old new : Array Nat) (limit : Nat) : (fuel : Nat) → Box → Bool →
    List Nat × List Nat
  | 0, box, _ => (positions box.oldFrom box.oldTo, positions box.newFrom box.newTo)
  | fuel + 1, box, exact =>
    let skipped := slideForward old new box old.size box.oldFrom box.newFrom - box.oldFrom
    let box := { box with oldFrom := box.oldFrom + skipped, newFrom := box.newFrom + skipped }
    let dropped := box.oldTo - slideBackward old new box old.size box.oldTo box.newTo
    let box := { box with oldTo := box.oldTo - dropped, newTo := box.newTo - dropped }
    if box.oldFrom = box.oldTo ∨ box.newFrom = box.newTo then
      (positions box.oldFrom box.oldTo, positions box.newFrom box.newTo)
    else
      let cut := cutOf old new box exact limit
      let before := differing old new limit fuel
        { box with oldTo := cut.oldAt, newTo := cut.newAt } cut.exactBefore
      let behind := differing old new limit fuel
        { box with oldFrom := cut.oldAt, newFrom := cut.newAt } cut.exactBehind
      (before.1 ++ behind.1, before.2 ++ behind.2)

/-- The marks of two sequences: which items of each are not in the other. -/
def marks (old new : Array Nat) : Array Bool × Array Bool :=
  let first := commonFront old new
  let oldLast := old.size - commonEnd old new
  let newLast := new.size - commonEnd old new
  let oldKept := compared old new first oldLast
  let newKept := compared new old first newLast
  let oldItems := oldKept.map fun i => old.getD i 0
  let newItems := newKept.map fun i => new.getD i 0
  let limit := max patience (roughRoot (oldItems.size + newItems.size + 3))
  let box : Box := { oldFrom := 0, oldTo := oldItems.size, newFrom := 0, newTo := newItems.size }
  let (oldOnly, newOnly) := differing oldItems newItems limit
    (oldItems.size + newItems.size + 1) box false
  let mark (size last : Nat) (kept : Array Nat) (only : List Nat) : Array Bool :=
    let same := (kept.toList.zipIdx.filter fun (_, n) => !only.contains n).map (·.1)
    (Array.range size).map fun i => decide (first ≤ i ∧ i < last) && !same.contains i
  (mark old.size oldLast oldKept oldOnly, mark new.size newLast newKept newOnly)

end CommitReports.LineDiff
