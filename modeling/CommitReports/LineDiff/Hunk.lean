import CommitReports.LineDiff.Groups
import CommitReports.Text.Utf8

/-!
# Hunks

Two texts are compared line by line, a line being told from the same one without
a line feed at its end. What differs is a list of edits: lines of the old text
that lines of the new one take the place of. Edits that are near each other stand
in one hunk, with lines around them that did not change. `patchBody` writes all
hunks, each under a header that gives the lines it covers on both sides and the
line of the old text above it that looks like the head of a section.
-/

namespace CommitReports.LineDiff

/-! ## Edits -/

/-- Lines of the old text, and the lines of the new text in their place. -/
structure Edit where
  oldStart : Nat
  oldCount : Nat
  newStart : Nat
  newCount : Nat
  deriving DecidableEq, Repr

/-- The lines of a text, each with the line feed that ends it. -/
def byteLines (bytes : List UInt8) : List (List UInt8) :=
  let (lines, last) := bytes.foldr (fun b (lines, line) =>
    if b = 10 then
      match line with
      | [] => (lines, [b])
      | _ :: _ => (line :: lines, [b])
    else (lines, b :: line)) (([] : List (List UInt8)), ([] : List UInt8))
  if last.isEmpty then lines else last :: lines

/-- The edits that marks on both sides stand for. -/
def editsOf (oldMarks newMarks : Array Bool) : (fuel i j : Nat) → List Edit
  | 0, _, _ => []
  | fuel + 1, i, j =>
    let oldCount := Group.runEnd oldMarks oldMarks.size i - i
    let newCount := Group.runEnd newMarks newMarks.size j - j
    let rest := if oldMarks.size ≤ i + oldCount ∧ newMarks.size ≤ j + newCount then []
      else editsOf oldMarks newMarks fuel (i + oldCount + 1) (j + newCount + 1)
    if oldCount + newCount = 0 then rest
    else { oldStart := i, oldCount, newStart := j, newCount } :: rest

/-- Numbers for the lines of two texts; the same lines have the same number. -/
def numbered (old new : Array (List UInt8)) : Array Nat × Array Nat :=
  let all := old ++ new
  let number (line : List UInt8) : Nat := (all.findIdx? (· == line)).getD all.size
  (old.map number, new.map number)

/-- The edits from one list of lines to another. -/
def edits (old new : Array (List UInt8)) : List Edit :=
  let (oldItems, newItems) := numbered old new
  let (oldMarks, newMarks) := marks oldItems newItems
  let oldMarks := settle oldItems oldMarks newMarks
  let newMarks := settle newItems newMarks oldMarks
  editsOf oldMarks newMarks (old.size + new.size + 1) 0 0

/-! ## Hunks -/

/-- How many unchanged lines are shown around an edit. -/
def context : Nat := 3

/-- Puts edits into hunks: edits with at most twice the context between them share one. -/
def hunks : List Edit → List (List Edit)
  | [] => []
  | edit :: rest =>
    match hunks rest with
    | (next :: more) :: others =>
      if next.oldStart - (edit.oldStart + edit.oldCount) ≤ 2 * context then
        (edit :: next :: more) :: others
      else [edit] :: (next :: more) :: others
    | others => [edit] :: others

/-- Whether a line looks like the head of a section. -/
def isHead (line : List UInt8) : Bool :=
  match line with
  | b :: _ => (65 ≤ b && b ≤ 90) || (97 ≤ b && b ≤ 122) || b == 95 || b == 36
  | [] => false

/-- Whether a byte is a blank. -/
def isBlankByte (b : UInt8) : Bool := b == 32 || (9 ≤ b && b ≤ 13)

/-- At most this many bytes of the head of a section are shown. -/
def headSize : Nat := 80

/-- The nearest head of a section among the first lines of the old text. -/
def headBefore? (old : Array (List UInt8)) (count : Nat) : Option (List UInt8) :=
  let trimmed := ((old.toList.take count).reverse.map fun line =>
    (line.reverse.dropWhile isBlankByte).reverse)
  (trimmed.find? isHead).map fun line => line.take headSize

/-! ## Writing hunks -/

/-- The first line and the number of lines on one side of a hunk. A side without lines is given by
the line before it; a number of 1 is left out. -/
def rangeText (start count : Nat) : String :=
  let first := if count = 0 then start else start + 1
  toString first ++ if count = 1 then "" else "," ++ toString count

/-- A line with the sign in front that says which side it stands on. -/
def lineText (sign : String) (line : List UInt8) : String :=
  sign ++ Text.decodeLossy ⟨line.toArray⟩ ++
    if line.getLast? = some 10 then "" else "\n\\ No newline at end of file\n"

/-- Lines from one position up to another, each with a sign. -/
def linesText (sign : String) (lines : Array (List UInt8)) (start stop : Nat) : String :=
  String.join ((lines.extract start stop).toList.map (lineText sign))

/-- The edits of a hunk, with the unchanged lines from a line of the new text on. -/
def editsText (old new : Array (List UInt8)) : (shown : Nat) → List Edit → String
  | _, [] => ""
  | shown, edit :: rest =>
    linesText " " new shown edit.newStart ++
      linesText "-" old edit.oldStart (edit.oldStart + edit.oldCount) ++
      linesText "+" new edit.newStart (edit.newStart + edit.newCount) ++
      editsText old new (edit.newStart + edit.newCount) rest

/-- A hunk with its header. -/
def hunkText (old new : Array (List UInt8)) (hunk : List Edit) : String :=
  match hunk, hunk.getLast? with
  | first :: _, some last =>
    let oldStart := first.oldStart - context
    let newStart := first.newStart - context
    let oldEnd := last.oldStart + last.oldCount
    let newEnd := last.newStart + last.newCount
    let after := min context (min (old.size - oldEnd) (new.size - newEnd))
    let head := match headBefore? old oldStart with
      | some line => " " ++ Text.decodeLossy ⟨line.toArray⟩
      | none => ""
    "@@ -" ++ rangeText oldStart (oldEnd + after - oldStart) ++ " +" ++
      rangeText newStart (newEnd + after - newStart) ++ " @@" ++ head ++ "\n" ++
      editsText old new newStart hunk ++ linesText " " new newEnd (newEnd + after)
  | _, _ => ""

/-- The hunks between two texts. -/
def patchBody (old new : ByteArray) : String :=
  let oldLines := (byteLines old.toList).toArray
  let newLines := (byteLines new.toList).toArray
  String.join ((hunks (edits oldLines newLines)).map (hunkText oldLines newLines))

end CommitReports.LineDiff
