import CommitReports.Path

/-!
# Names of references

A reference is named by a path such as `refs/heads/main`; a name of one segment
is that of a special reference such as `HEAD`. Not every text is a name: some
characters and some spellings are kept for the syntax of revisions. `normalize?`
drops the slashes that say nothing; a name that it does not change is valid.
-/

namespace CommitReports.Git.RefName

/-- The references that branches of this repository are. -/
def heads : String := "refs/heads/"

/-- Whether a character may stand in a name. -/
def isNameChar (c : Char) : Bool :=
  ' ' < c && !(['~', '^', ':', '\\', '?', '[', '*'].contains c)

/-- Whether one character follows another somewhere in a text. -/
def hasPair (a b : Char) : List Char → Bool
  | x :: y :: rest => (x == a && y == b) || hasPair a b (y :: rest)
  | _ => false

/-- A segment is the name of a file, of at most this many bytes. -/
def maxSegmentSize : Nat := 255

/-- A name is shorter than this many bytes. -/
def maxSize : Nat := 1024

/-- Whether a segment may stand in a name. -/
def isSegment (segment : List Char) : Bool :=
  (String.ofList segment).utf8ByteSize ≤ maxSegmentSize && segment.head? != some '.' && segment.all isNameChar && !hasPair '.' '.' segment &&
    !hasPair '@' '\x7b' segment && !".lock".toList.isSuffixOf segment

/-- Whether a segment is made like the name of a special reference: of capitals, with underscores
inside. -/
def isSpecial (segment : List Char) : Bool :=
  segment.all (fun c => ('A' ≤ c && c ≤ 'Z') || c == '_') && segment.head? != some '_' &&
    segment.getLast? != some '_' && !segment.isEmpty

/-- The segments of a name, the empty ones left out; none if the text spells no name. -/
def segments? (text : String) : Option (List (List Char)) :=
  let names := (Path.segments text.toList).filter fun segment => !segment.isEmpty
  if maxSize ≤ text.utf8ByteSize || text.startsWith "/" || text.endsWith "/" || text.endsWith "." || !names.all isSegment then none
  else some names

/-- The name that a text spells, if it spells one. -/
def normalize? (text : String) : Option String :=
  match segments? text with
  | none => none
  | some [] => none
  | some [name] => if isSpecial name then some (String.ofList name) else none
  | some (first :: rest) =>
    if isSpecial first then none else some (String.ofList (Path.unsegments (first :: rest)))

/-- Whether a text is a name as it stands. -/
def isValid (text : String) : Bool := normalize? text == some text

/-- Whether a text may name a reference of a remote, be it in short. -/
def isShorthand (text : String) : Bool :=
  match segments? text with
  | none => false
  | some names => !names.isEmpty && String.ofList (Path.unsegments names) == text

/-- The reference that a local branch of the given name would be. -/
def ofBranch? (name : String) : Option String :=
  normalize? (heads ++ String.ofList (name.toList.dropWhile (· == '/')))

/-- Whether a reference is a local branch. -/
def isBranch (name : String) : Bool := name.startsWith heads

end CommitReports.Git.RefName
