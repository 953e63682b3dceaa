import CommitReports.LineDiff.Marks

/-!
# Sliding groups of marked lines

A group of marked items can often be moved up or down without a change of
meaning: where the item before it is the same as its last one, or the item behind
it the same as its first. `settle` moves every group down as far as it goes, or to
the last place where a group of the other side stands beside it; groups that meet
become one.
-/

namespace CommitReports.LineDiff

/-! ## Groups -/

/-- The items from `start` up to `stop`, all marked; empty where the two are equal. A group ends
at an item that is not marked, or at the end. -/
structure Group where
  start : Nat
  stop : Nat
  deriving DecidableEq, Repr

namespace Group

/-- The end of the run of marks that begins at a position. -/
def runEnd (marks : Array Bool) : (fuel : Nat) → Nat → Nat
  | 0, i => i
  | fuel + 1, i => if marks.getD i false then runEnd marks fuel (i + 1) else i

/-- The beginning of the run of marks that ends before a position. -/
def runStart (marks : Array Bool) : Nat → Nat
  | 0 => 0
  | i + 1 => if marks.getD i false then runStart marks i else i + 1

/-- The first group. -/
def first (marks : Array Bool) : Group := { start := 0, stop := runEnd marks marks.size 0 }

/-- The group behind the next item that is not marked. -/
def next? (marks : Array Bool) (group : Group) : Option Group :=
  if marks.size ≤ group.stop then none
  else some { start := group.stop + 1, stop := runEnd marks marks.size (group.stop + 1) }

/-- The group before the item in front of a group. -/
def previous? (marks : Array Bool) (group : Group) : Option Group :=
  if group.start = 0 then none
  else some { start := runStart marks (group.start - 1), stop := group.start - 1 }

/-- Whether there is no item in a group. -/
def isEmpty (group : Group) : Bool := group.start == group.stop

end Group

/-! ## Sliding -/

/-- Marks on one side, a group on it and the group beside it on the other side. -/
structure Slide where
  marks : Array Bool
  group : Group
  beside : Group

namespace Slide

variable (items : Array Nat) (others : Array Bool)

/-- Moves the group up by one item, if that changes nothing. -/
def up? (slide : Slide) : Option Slide :=
  let g := slide.group
  if 0 < g.start ∧ items[g.start - 1]? = items[g.stop - 1]? then
    match slide.beside.previous? others with
    | none => none
    | some beside =>
      let marks := (slide.marks.setIfInBounds (g.start - 1) true).setIfInBounds (g.stop - 1) false
      let group : Group := { start := Group.runStart marks (g.start - 1), stop := g.stop - 1 }
      some { marks, beside, group }
  else none

/-- Moves the group down by one item, if that changes nothing. -/
def down? (slide : Slide) : Option Slide :=
  let g := slide.group
  if g.stop < items.size ∧ items[g.start]? = items[g.stop]? then
    match slide.beside.next? others with
    | none => none
    | some beside =>
      let marks := (slide.marks.setIfInBounds g.start false).setIfInBounds g.stop true
      let group : Group :=
        { start := g.start + 1, stop := Group.runEnd marks marks.size (g.stop + 1) }
      some { marks, beside, group }
  else none

/-- Moves the group up as far as it goes. -/
def top : (fuel : Nat) → Slide → Slide
  | 0, slide => slide
  | fuel + 1, slide =>
    match slide.up? items others with
    | some slide => top fuel slide
    | none => slide

/-- Moves the group down as far as it goes; also the last end that it had beside a group of the
other side. -/
def bottom : (fuel : Nat) → Slide → Option Nat → Slide × Option Nat
  | 0, slide, aligned => (slide, aligned)
  | fuel + 1, slide, aligned =>
    match slide.down? items others with
    | some slide =>
      bottom fuel slide (if slide.beside.isEmpty then aligned else some slide.group.stop)
    | none => (slide, aligned)

/-- Moves the group up until a group of the other side stands beside it. -/
def align : (fuel : Nat) → Slide → Slide
  | 0, slide => slide
  | fuel + 1, slide =>
    if slide.beside.isEmpty then
      match slide.up? items others with
      | some slide => align fuel slide
      | none => slide
    else slide

/-- Moves the group to its place. A group that has met others on its way is moved once more. -/
def place : (fuel : Nat) → Slide → Slide
  | 0, slide => slide
  | fuel + 1, slide =>
    let size := slide.group.stop - slide.group.start
    let high := top items others items.size slide
    let (low, aligned) := bottom items others items.size high
      (if high.beside.isEmpty then none else some high.group.stop)
    if low.group.stop - low.group.start != size then place fuel low
    else if low.group.stop = high.group.stop then low
    else if aligned.isSome then align items others items.size low
    else low

/-- Moves one group after the other to its place. -/
def run : (fuel : Nat) → Slide → Array Bool
  | 0, slide => slide.marks
  | fuel + 1, slide =>
    let slide := if slide.group.isEmpty then slide else place items others (items.size + 1) slide
    match slide.group.next? slide.marks, slide.beside.next? others with
    | some group, some beside => run fuel { slide with group, beside }
    | _, _ => slide.marks

end Slide

/-- The marks of one side with every group in its place, beside the marks of the other side. -/
def settle (items : Array Nat) (marks others : Array Bool) : Array Bool :=
  Slide.run items others (items.size + 1)
    { marks, group := Group.first marks, beside := Group.first others }

end CommitReports.LineDiff
