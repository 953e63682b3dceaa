/-!
# Where to cut a comparison in two

Two sequences are compared by looking for a point that a shortest way from one
to the other leads through. Ways are followed from both ends at once: on each
diagonal (a difference of positions) a front keeps how far a way with a given
number of steps has come. Where the fronts meet, the comparison is cut. A search
that takes too long is cut at a point that looks good; `Cut` says whether the
halves must still be searched to the end.
-/

namespace CommitReports.LineDiff

/-! ## Fronts -/

/-- A part of two sequences: `oldFrom ≤ i < oldTo` and `newFrom ≤ j < newTo`. -/
structure Box where
  oldFrom : Int
  oldTo : Int
  newFrom : Int
  newTo : Int
  deriving Repr

/-- A point that cuts a box in two, and whether the halves before and behind it must be searched
to the end. -/
structure Cut where
  oldAt : Int
  newAt : Int
  exactBefore : Bool
  exactBehind : Bool
  deriving Repr

/-- How far the ways have come, on the diagonals from `low` to `high` by twos. -/
structure Front where
  /-- What is added to a diagonal to find its place. -/
  shift : Int
  reach : Array Int
  low : Int
  high : Int

namespace Front

/-- A front on one diagonal. -/
def start (size : Nat) (shift diagonal value : Int) : Front :=
  { shift, reach := (Array.replicate size 0).setIfInBounds (diagonal + shift).toNat value,
    low := diagonal, high := diagonal }

/-- How far the way on a diagonal has come. -/
def get (front : Front) (diagonal : Int) : Int := front.reach.getD (diagonal + front.shift).toNat 0

/-- Puts how far the way on a diagonal has come. -/
def set (front : Front) (diagonal value : Int) : Front :=
  { front with reach := front.reach.setIfInBounds (diagonal + front.shift).toNat value }

/-- The front one step wider, or narrower where it would leave the box; `outside` stands for no
way beside it. -/
def widen (front : Front) (lowest highest outside : Int) : Front :=
  let front :=
    if lowest < front.low then { front.set (front.low - 2) outside with low := front.low - 1 }
    else { front with low := front.low + 1 }
  if front.high < highest then { front.set (front.high + 2) outside with high := front.high + 1 }
  else { front with high := front.high - 1 }

/-- The diagonals of a front, the highest first. -/
def diagonals (front : Front) : List Int :=
  if front.high < front.low then []
  else (List.range (((front.high - front.low) / 2).toNat + 1)).map fun (n : Nat) => front.high - 2 * (n : Int)

end Front

variable (old new : Array Nat) (box : Box)

/-! ## One round -/

/-- Whether the items at two positions are the same. -/
def same (i j : Int) : Bool := old[i.toNat]? == new[j.toNat]?

/-- Goes forward over items that are the same. -/
def slideForward : (fuel : Nat) → Int → Int → Int
  | 0, i, _ => i
  | fuel + 1, i, j =>
    if i < box.oldTo ∧ j < box.newTo ∧ same old new i j then slideForward fuel (i + 1) (j + 1)
    else i

/-- Goes backward over items that are the same. -/
def slideBackward : (fuel : Nat) → Int → Int → Int
  | 0, i, _ => i
  | fuel + 1, i, j =>
    if box.oldFrom < i ∧ box.newFrom < j ∧ same old new (i - 1) (j - 1) then
      slideBackward fuel (i - 1) (j - 1)
    else i

/-- A run of this many items that are the same is a good one. -/
def goodRun : Int := 20

/-- A search takes at least this many steps before it is cut short. -/
def patience : Nat := 256

/-- What one round of the search has found: a meeting of the fronts, the new front, and whether a
good run was passed. -/
structure Round where
  meeting : Option (Int × Int)
  front : Front
  good : Bool

/-- Lengthens the ways from the start by one step, on each diagonal in turn, until the other front
is met. -/
def advance (other : Front) (odd : Bool) : List Int → Front → Bool → Round
  | [], front, good => { meeting := none, front, good }
  | d :: rest, front, good =>
    let start := if front.get (d + 1) ≤ front.get (d - 1) then front.get (d - 1) + 1
      else front.get (d + 1)
    let i := slideForward old new box old.size start (start - d)
    let good := good || goodRun < i - start
    let front := front.set d i
    if odd ∧ other.low ≤ d ∧ d ≤ other.high ∧ other.get d ≤ i then
      { meeting := some (i, i - d), front, good }
    else advance other odd rest front good

/-- Lengthens the ways from the end by one step, on each diagonal in turn, until the other front is
met. -/
def retreat (other : Front) (odd : Bool) : List Int → Front → Bool → Round
  | [], front, good => { meeting := none, front, good }
  | d :: rest, front, good =>
    let start := if front.get (d - 1) < front.get (d + 1) then front.get (d - 1)
      else front.get (d + 1) - 1
    let i := slideBackward old new box old.size start (start - d)
    let good := good || goodRun < start - i
    let front := front.set d i
    if !odd ∧ other.low ≤ d ∧ d ≤ other.high ∧ i ≤ other.get d then
      { meeting := some (i, i - d), front, good }
    else retreat other odd rest front good

/-! ## Cutting a search short -/

/-- A way must have come this many times as far as it took steps to look good. -/
def goodRatio : Int := 4

/-- Whether a good run ends before a point. -/
def runBefore (i j : Int) : Bool :=
  (List.range goodRun.toNat).all fun k => same old new (i - 1 - k) (j - 1 - k)

/-- Whether a good run begins at a point. -/
def runBehind (i j : Int) : Bool :=
  (List.range goodRun.toNat).all fun k => same old new (i + k) (j + k)

/-- The point on the front from the start that looks best, of those that look good. -/
def promisingForward (front : Front) (middle : Int) (steps : Nat) : Option (Int × Int) :=
  (front.diagonals.foldl (fun (best, point) d =>
    let i := front.get d
    let j := i - d
    let value := (i - box.oldFrom) + (j - box.newFrom) - (d - middle).natAbs
    if goodRatio * steps < value ∧ best < value ∧
        box.oldFrom + goodRun ≤ i ∧ i < box.oldTo ∧ box.newFrom + goodRun ≤ j ∧ j < box.newTo ∧
        runBefore old new i j then (value, some (i, j))
    else (best, point)) ((0 : Int), (none : Option (Int × Int)))).2

/-- The point on the front from the end that looks best, of those that look good. -/
def promisingBackward (front : Front) (middle : Int) (steps : Nat) : Option (Int × Int) :=
  (front.diagonals.foldl (fun (best, point) d =>
    let i := front.get d
    let j := i - d
    let value := (box.oldTo - i) + (box.newTo - j) - (d - middle).natAbs
    if goodRatio * steps < value ∧ best < value ∧
        box.oldFrom < i ∧ i ≤ box.oldTo - goodRun ∧ box.newFrom < j ∧ j ≤ box.newTo - goodRun ∧
        runBehind old new i j then (value, some (i, j))
    else (best, point)) ((0 : Int), (none : Option (Int × Int)))).2

/-- The point that a way from the start has come to, inside the box. -/
def clampForward (front : Front) (d : Int) : Int × Int :=
  let i := min (front.get d) box.oldTo
  if box.newTo < i - d then (box.newTo + d, box.newTo) else (i, i - d)

/-- The point that a way from the end has come to, inside the box. -/
def clampBackward (front : Front) (d : Int) : Int × Int :=
  let i := max box.oldFrom (front.get d)
  if i - d < box.newFrom then (box.newFrom + d, box.newFrom) else (i, i - d)

/-- The cut at the point that either front has come farthest to. -/
def farthest (forward backward : Front) : Cut :=
  let ahead := forward.diagonals.foldl (fun (best : Int × Int) d =>
    let p := clampForward box forward d
    if best.1 + best.2 < p.1 + p.2 then p else best) (-1, 0)
  let behind := backward.diagonals.foldl (fun (best : Option (Int × Int)) d =>
    let p := clampBackward box backward d
    match best with
    | none => some p
    | some b => if p.1 + p.2 < b.1 + b.2 then some p else some b) none
  let behind := behind.getD (box.oldTo, box.newTo)
  if (box.oldTo + box.newTo) - (behind.1 + behind.2) <
      (ahead.1 + ahead.2) - (box.oldFrom + box.newFrom) then
    { oldAt := ahead.1, newAt := ahead.2, exactBefore := true, exactBehind := false }
  else { oldAt := behind.1, newAt := behind.2, exactBefore := false, exactBehind := true }

/-! ## The search -/

/-- Lets the ways grow step by step until a cut is found. -/
def search (exact : Bool) (limit : Nat) : (fuel steps : Nat) → Front → Front → Cut
  | 0, _, forward, backward => farthest box forward backward
  | fuel + 1, steps, forward, backward =>
    let lowest := box.oldFrom - box.newTo
    let highest := box.oldTo - box.newFrom
    let startDiagonal := box.oldFrom - box.newFrom
    let endDiagonal := box.oldTo - box.newTo
    let odd := (startDiagonal - endDiagonal) % 2 != 0
    let wide := forward.widen lowest highest (-1)
    let there := advance old new box backward odd wide.diagonals wide false
    -- Where the fronts meet, both halves can be searched to the end.
    match there.meeting with
    | some (i, j) => { oldAt := i, newAt := j, exactBefore := true, exactBehind := true }
    | none =>
      let wide := backward.widen lowest highest (old.size + new.size + 2)
      let back := retreat old new box there.front odd wide.diagonals wide there.good
      match back.meeting with
      | some (i, j) => { oldAt := i, newAt := j, exactBefore := true, exactBehind := true }
      | none =>
        -- A long search is cut at a point behind a good run, and a very long one anywhere.
        let promising := !exact && back.good && decide (patience < steps)
        match (if promising then promisingForward old new box there.front startDiagonal steps
          else none) with
        | some (i, j) => { oldAt := i, newAt := j, exactBefore := true, exactBehind := false }
        | none =>
          match (if promising then promisingBackward old new box back.front endDiagonal steps
            else none) with
          | some (i, j) => { oldAt := i, newAt := j, exactBefore := false, exactBehind := true }
          | none =>
            if !exact && decide (limit ≤ steps) then farthest box there.front back.front
            else search exact limit fuel (steps + 1) there.front back.front

/-- A cut of a box. -/
def cutOf (exact : Bool) (limit : Nat) : Cut :=
  let size := old.size + new.size + 5
  let shift : Int := new.size + 2
  let fuel := ((box.oldTo - box.oldFrom) + (box.newTo - box.newFrom)).toNat + 2
  search old new box exact limit fuel 1
    (Front.start size shift (box.oldFrom - box.newFrom) box.oldFrom)
    (Front.start size shift (box.oldTo - box.newTo) box.oldTo)

end CommitReports.LineDiff
