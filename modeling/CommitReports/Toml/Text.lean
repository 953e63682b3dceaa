import CommitReports.Toml.Scalar

/-!
# Strings and comments

Strings stand between quotes or apostrophes, single ones on one line or tripled
ones over several. Between quotes, backslashes start escapes. A line end inside a
string counts as a line feed. Every reader gives the text and what follows the
closing mark.
-/

namespace CommitReports.Toml

/-! ## Blanks, line ends and comments -/

/-- Whether a character may stand in a comment or between apostrophes: no control but the tab. -/
def isPlainChar (c : Char) : Bool :=
  c == '\t' || (0x20 ≤ c.toNat && c.toNat != 0x7F)

/-- Blanks that do not end a line. -/
def isSpace (c : Char) : Bool := c == ' ' || c == '\t'

/-- What follows the blanks at the front. -/
def skipSpaces (cs : List Char) : List Char := cs.dropWhile isSpace

/-- What follows a line end. -/
def afterNewline : List Char → Option (List Char)
  | '\n' :: rest => some rest
  | '\r' :: '\n' :: rest => some rest
  | _ => none

/-- What follows a comment, if one starts here: the end of its line. -/
def skipComment : List Char → Option (List Char)
  | '#' :: rest =>
    let rest := rest.dropWhile isPlainChar
    if rest.isEmpty || (afterNewline rest).isSome then some rest else none
  | cs => some cs

/-! ## Escapes -/

/-- The character with the code point that exactly `count` hexadecimal digits denote. -/
def codePoint (count : Nat) (cs : List Char) : Option (Char × List Char) :=
  let digits := cs.take count
  let n := numberOf 16 digits
  if digits.length = count ∧ digits.all Text.isHexDigit ∧ n.isValidChar then
    some (Char.ofNat n, cs.drop count)
  else none

/-- The character that an escape denotes, after its backslash. -/
def escaped : List Char → Option (Char × List Char)
  | 'b' :: rest => some ('\x08', rest)
  | 't' :: rest => some ('\t', rest)
  | 'n' :: rest => some ('\n', rest)
  | 'f' :: rest => some ('\x0c', rest)
  | 'r' :: rest => some ('\r', rest)
  | '"' :: rest => some ('"', rest)
  | '\\' :: rest => some ('\\', rest)
  | 'u' :: rest => codePoint 4 rest
  | 'U' :: rest => codePoint 8 rest
  | _ => none

/-- What follows a backslash at the end of a line: the first character that is no blank and no line
end. -/
def skipBrokenLine (cs : List Char) : Option (List Char) :=
  (afterNewline (skipSpaces cs)).bind skipBlankLines
where
  /-- Skips blanks and line ends; a carriage return alone is no line end. -/
  skipBlankLines : List Char → Option (List Char)
    | [] => some []
    | ' ' :: rest => skipBlankLines rest
    | '\t' :: rest => skipBlankLines rest
    | '\n' :: rest => skipBlankLines rest
    | '\r' :: '\n' :: rest => skipBlankLines rest
    | cs => some cs

/-! ## Strings -/

/-- What ends the text of a string, and how the text goes on. -/
inductive Piece where
  | char (c : Char) (rest : List Char)
  | skip (rest : List Char)
  | closing (extra : Nat) (rest : List Char)

/-- The next piece of a string on one line. -/
def singlePiece (mark : Char) (escapes : Bool) : List Char → Option Piece
  | [] => none
  | c :: rest =>
    if c = mark then some (.closing 0 rest)
    else if escapes ∧ c = '\\' then (escaped rest).map fun (c, rest) => .char c rest
    else if isPlainChar c then some (.char c rest)
    else none

/-- The next piece of a string over several lines. Up to two marks are part of the text, also just
before the closing three. -/
def triplePiece (mark : Char) (escapes : Bool) (cs : List Char) : Option Piece :=
  match afterNewline cs with
  | some rest => some (.char '\n' rest)
  | none =>
    match cs with
    | [] => none
    | c :: rest =>
      if c = mark then
        let count := min 5 (cs.takeWhile (· == mark)).length
        if 3 ≤ count then some (.closing (count - 3) (cs.drop count)) else some (.char c rest)
      else if escapes ∧ c = '\\' then
        match escaped rest with
        | some (c, rest) => some (.char c rest)
        | none => (skipBrokenLine rest).map .skip
      else if isPlainChar c then some (.char c rest)
      else none

/-- The text up to the closing mark, piece by piece, and what follows. A piece that takes nothing
ends the reading. -/
def readPieces (mark : Char) (next : List Char → Option Piece) (done : List Char)
    (cs : List Char) : Option (List Char × List Char) :=
  match next cs with
  | some (.char c rest) =>
    if rest.length < cs.length then readPieces mark next (c :: done) rest else none
  | some (.skip rest) => if rest.length < cs.length then readPieces mark next done rest else none
  | some (.closing extra rest) => some (done.reverse ++ List.replicate extra mark, rest)
  | none => none
  termination_by cs.length

/-- A string of several lines, after its opening marks. A line end right after them is no part of
the text. -/
def readTriple (mark : Char) (escapes : Bool) (cs : List Char) : Option (List Char × List Char) :=
  readPieces mark (triplePiece mark escapes) [] ((afterNewline cs).getD cs)

/-- A string of one line, after its opening mark. -/
def readSingle (mark : Char) (escapes : Bool) (cs : List Char) : Option (List Char × List Char) :=
  readPieces mark (singlePiece mark escapes) [] cs

/-- A string of any form. -/
def readString : List Char → Option (String × List Char)
  | '"' :: '"' :: '"' :: rest => (readTriple '"' true rest).map fun (t, r) => (String.ofList t, r)
  | '\x27' :: '\x27' :: '\x27' :: rest =>
    (readTriple '\x27' false rest).map fun (t, r) => (String.ofList t, r)
  | '"' :: rest => (readSingle '"' true rest).map fun (t, r) => (String.ofList t, r)
  | '\x27' :: rest => (readSingle '\x27' false rest).map fun (t, r) => (String.ofList t, r)
  | _ => none

/-! ## Keys -/

/-- Whether a character may stand in a key without quotes. -/
def isKeyChar (c : Char) : Bool := c.isAlphanum || c == '_' || c == '-'

/-- One part of a key: a word, or a string of one line. -/
def readKeyPart : List Char → Option (String × List Char)
  | '"' :: rest => (readSingle '"' true rest).map fun (t, r) => (String.ofList t, r)
  | '\x27' :: rest => (readSingle '\x27' false rest).map fun (t, r) => (String.ofList t, r)
  | cs =>
    let word := cs.takeWhile isKeyChar
    if word.isEmpty then none else some (String.ofList word, cs.dropWhile isKeyChar)

/-- Keys and values may not nest this deep. -/
def maxDepth : Nat := 80

/-- A key: parts with points between them, blanks around each allowed. It has fewer than `fuel`
parts. -/
def readKeyParts : (fuel : Nat) → List Char → Option (List String × List Char)
  | 0, _ => none
  | fuel + 1, cs => do
    let (part, rest) ← readKeyPart (skipSpaces cs)
    match skipSpaces rest with
    | '.' :: rest =>
      let (parts, rest) ← readKeyParts fuel rest
      some (part :: parts, rest)
    | rest => some ([part], rest)

/-- A key: the parts before its last one, the last one, and what follows. -/
def readKey (cs : List Char) : Option (List String × String × List Char) := do
  let (parts, rest) ← readKeyParts (maxDepth - 1) cs
  let last ← parts.getLast?
  some (parts.dropLast, last, rest)

end CommitReports.Toml
