import CommitReports.Git.Delta
import CommitReports.LineDiff.Hunk

/-!
# Patches

A patch tells for each change of a file its path, its modes and ids, and the
hunks between the two contents. A path that holds a byte other than the visible
ones of ASCII is written between quotes, with escapes. Files with a NUL byte near
their front are only said to differ.
-/

namespace CommitReports.Git.Patch

/-- The letters that stand for the control bytes from 7 to 13. -/
def controlLetters : List Char := ['a', 'b', 't', 'n', 'v', 'f', 'r']

/-- Whether a byte is written as it is, without quotes around the path. -/
def isPlain (b : UInt8) : Bool := 32 ≤ b && b ≤ 126 && b != 34 && b != 92

/-- A number below 512 as three octal digits. -/
def octal (n : Nat) : String :=
  String.ofList [Nat.digitChar (n / 64 % 8), Nat.digitChar (n / 8 % 8), Nat.digitChar (n % 8)]

/-- A byte between quotes. -/
def escapeByte (b : UInt8) : String :=
  if isPlain b then String.singleton (Char.ofNat b.toNat)
  else if 7 ≤ b ∧ b ≤ 13 then
    "\\" ++ String.singleton (controlLetters.getD (b.toNat - 7) 'a')
  else if b = 34 then "\\\""
  else if b = 92 then "\\\\"
  else "\\" ++ octal b.toNat

/-- A path as it is written in a patch. -/
def pathText (path : String) : String :=
  let bytes := path.toUTF8.toList
  if bytes.all isPlain then path else "\"" ++ String.join (bytes.map escapeByte) ++ "\""

/-- The bytes that are compared for a file. -/
def content (objects : ObjectStore) (file : Option TreeFile) : ByteArray :=
  match file with
  | none => .empty
  | some file =>
    if file.mode = .submodule then s!"Subproject commit {file.id.hex}\n".toUTF8
    else (objects.blob? file.id).getD .empty

/-- How many bytes at the front are searched for a NUL. -/
def binaryWindow : Nat := 8000

/-- Whether a content is not made of lines. -/
def isBinary (bytes : ByteArray) : Bool := (bytes.toList.take binaryWindow).contains 0

/-- The lines on the modes of a change. -/
def modeLines (change : Change) : String :=
  match change with
  | .added _ new => s!"new file mode {new.mode.octal}\n"
  | .deleted _ old => s!"deleted file mode {old.mode.octal}\n"
  | .modified _ old new =>
    if old.mode = new.mode then ""
    else s!"old mode {old.mode.octal}\nnew mode {new.mode.octal}\n"

/-- The line on the ids of a change, with the mode if it stays as it is. -/
def indexLine (change : Change) : String :=
  let ids := s!"index " ++ Change.idText change.old ++ ".." ++ Change.idText change.new
  match change with
  | .modified _ old new => if old.mode = new.mode then s!"{ids} {old.mode.octal}\n" else ids ++ "\n"
  | _ => ids ++ "\n"

/-- A path on one side, or the name that stands for no file. -/
def sideText (side path : String) (file : Option TreeFile) : String :=
  if file.isSome then pathText (side ++ path) else "/dev/null"

/-- The content of a change: hunks, or that the files differ. -/
def body (objects : ObjectStore) (change : Change) : String :=
  let old := content objects change.old
  let new := content objects change.new
  let oldSide := sideText "a/" change.path change.old
  let newSide := sideText "b/" change.path change.new
  if isBinary old || isBinary new then s!"Binary files {oldSide} and {newSide} differ\n"
  else s!"--- {oldSide}\n+++ {newSide}\n" ++ LineDiff.patchBody old new

/-- Whether a change leaves the content as it is. -/
def keepsContent (change : Change) : Bool :=
  match change with
  | .modified _ old new => old.id == new.id
  | _ => false

/-- A change as it stands in a patch. -/
def changeText (objects : ObjectStore) (change : Change) : String :=
  "diff --git " ++ pathText ("a/" ++ change.path) ++ " " ++ pathText ("b/" ++ change.path) ++ "\n" ++
    modeLines change ++
    if keepsContent change then "" else indexLine change ++ body objects change

end Patch

/-- The changes that some deltas stand for, each on a line. -/
def statusText (deltas : List Delta) : String :=
  String.join ((deltas.flatMap Delta.changes).map Change.status)

/-- The changes that some deltas stand for, as a patch. -/
def patchText (objects : ObjectStore) (deltas : List Delta) : String :=
  String.join ((deltas.flatMap Delta.changes).map (Patch.changeText objects))

end CommitReports.Git
