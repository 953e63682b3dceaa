import CommitReports.Git.Object
import CommitReports.Git.Signature

/-!
# The text of commits and tags

A commit's text is a header of lines, an empty line and the message. The header
names the tree, the parents, the author and the committer, in this order; lines
of other kinds may follow. A tag's text names its target and the target's kind. A
text that breaks these rules is no commit, or no tag.
-/

namespace CommitReports.Git

/-! ## What the texts say -/

/-- What a commit's text says. -/
structure CommitInfo where
  tree : ObjectId
  parents : List ObjectId
  author : Signature
  committer : Signature
  /-- The message, without the line feeds in front of it. -/
  message : List UInt8
  deriving DecidableEq, Repr

/-- Why a text is no commit. -/
inductive CommitFault where
  /-- The author or the committer is not readable. -/
  | signature (fault : SignatureFault)
  /-- The header does not begin with a tree. -/
  | header
  deriving DecidableEq, Repr

/-- The wording of a fault. -/
def CommitFault.message : CommitFault → String
  | .signature fault => fault.message
  | .header => "object parsing failed"

/-- What a tag's text says. -/
structure TagInfo where
  target : ObjectId
  kind : ObjectKind
  deriving DecidableEq, Repr

/-! ## Lines of the header -/

/-- The first line and what follows it; none if no line feed ends it. -/
def splitLine (bytes : List UInt8) : Option (List UInt8 × List UInt8) :=
  let line := bytes.takeWhile (· != 10)
  match bytes.drop line.length with
  | _ :: rest => some (line, rest)
  | [] => none

/-- What follows a word and a space at the front of a line. -/
def afterWord (word : String) (line : List UInt8) : Option (List UInt8) :=
  let front := (word ++ " ").toUTF8.toList
  if front.isPrefixOf line then some (line.drop front.length) else none

/-- The id after a word. -/
def idAfter (word : String) (line : List UInt8) : Option ObjectId := do
  let digits ← afterWord word line
  ObjectId.ofText? (← String.fromUTF8? ⟨digits.toArray⟩)

/-- The signature in the line at the front, after a word, and what follows the line. -/
def signatureAfter (word : String) (bytes : List UInt8) :
    Except CommitFault (Signature × List UInt8) :=
  match splitLine bytes with
  | none => .error (.signature .ending)
  | some (line, rest) =>
    match afterWord word line with
    | none => .error (.signature .word)
    | some [] => .error (.signature .word)
    | some text =>
      match Signature.read text with
      | .error fault => .error (.signature fault)
      | .ok signature => .ok (signature, rest)

/-- The parents that the lines at the front name, and what follows. -/
def readParents : (fuel : Nat) → List UInt8 → List ObjectId × List UInt8
  | 0, bytes => ([], bytes)
  | fuel + 1, bytes =>
    match splitLine bytes with
    | some (line, rest) =>
      match idAfter "parent" line with
      | some id =>
        let (ids, rest) := readParents fuel rest
        (id :: ids, rest)
      | none => ([], bytes)
    | none => ([], bytes)

/-- Skips further author lines, each of which must be readable. -/
def skipAuthors : (fuel : Nat) → List UInt8 → Except CommitFault (List UInt8)
  | 0, bytes => .ok bytes
  | fuel + 1, bytes =>
    if (afterWord "author" bytes).isSome then do
      let (_, rest) ← signatureAfter "author" bytes
      skipAuthors fuel rest
    else .ok bytes

/-- What follows the first empty line, if there is one. -/
def afterHeader : (fuel : Nat) → List UInt8 → List UInt8
  | 0, _ => []
  | _, 10 :: rest => rest
  | fuel + 1, bytes =>
    match splitLine bytes with
    | some (_, rest) => afterHeader fuel rest
    | none => []

/-! ## Whole texts -/

/-- The tree that the first line names, and what follows it. -/
def readTree (bytes : List UInt8) : Except CommitFault (ObjectId × List UInt8) :=
  match splitLine bytes with
  | none => .error .header
  | some (line, rest) =>
    match idAfter "tree" line with
    | none => .error .header
    | some tree => .ok (tree, rest)

/-- Reads a commit's text. -/
def CommitInfo.read (text : ByteArray) : Except CommitFault CommitInfo := do
  let (tree, bytes) ← readTree text.toList
  let (parents, bytes) := readParents text.size bytes
  let (author, bytes) ← signatureAfter "author" bytes
  let bytes ← skipAuthors text.size bytes
  let (committer, bytes) ← signatureAfter "committer" bytes
  let message := (afterHeader text.size bytes).takeWhile (· != 0)
  return { tree, parents, author, committer, message := message.dropWhile (· == 10) }

/-- Reads a tag's text. -/
def TagInfo.read? (text : ByteArray) : Option TagInfo := do
  let (line, bytes) ← splitLine text.toList
  let target ← idAfter "object" line
  let (line, bytes) ← splitLine bytes
  let kind ← ObjectKind.ofName? (← String.fromUTF8? ⟨(← afterWord "type" line).toArray⟩)
  let (line, bytes) ← splitLine bytes
  let _ ← afterWord "tag" line
  match bytes with
  | [] => return { target, kind }
  | 10 :: _ => return { target, kind }
  | _ =>
    let _ ← (signatureAfter "tagger" bytes).toOption
    return { target, kind }

end CommitReports.Git
