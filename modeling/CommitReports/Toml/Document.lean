import CommitReports.Toml.Table
import CommitReports.Toml.Text

/-!
# Documents

`parse?` reads a whole document: lines that hold a key with its value, a header,
or nothing, each with an optional comment. It yields the entries of the root
table in document order, or nothing if any part of the text breaks the grammar or
the rules on tables.
-/

namespace CommitReports.Toml

/-! ## Values -/

/-- Skips blanks, line ends and comments, as between the items of an array. -/
def skipGap (cs : List Char) : Option (List Char) :=
  match skipSpaces cs with
  | [] => some []
  | c :: rest =>
    if c = '#' then
      match skipComment (c :: rest) with
      | some rest => if rest.length < cs.length then skipGap rest else none
      | none => none
    else match afterNewline (c :: rest) with
      | some rest => if rest.length < cs.length then skipGap rest else none
      | none => some (c :: rest)
  termination_by cs.length

/-- The items of an array after its opening bracket. A comma may follow the last one. -/
def readItems (item : List Char → Option (Value × List Char)) (done : List Value)
    (cs : List Char) : Option (List Value × List Char) :=
  match skipGap cs with
  | some (']' :: rest) => some (done.reverse, rest)
  | some start =>
    match item start with
    | none => none
    | some (value, rest) =>
      match skipGap rest with
      | some (']' :: rest) => some ((value :: done).reverse, rest)
      | some (',' :: rest) =>
        if rest.length < cs.length then readItems item (value :: done) rest else none
      | _ => none
  | none => none
  termination_by cs.length

/-- A key with its value. -/
def readPair (item : List Char → Option (Value × List Char)) (cs : List Char) :
    Option ((List String × String × Value) × List Char) :=
  match readKey cs with
  | some (path, key, '=' :: rest) =>
    (item (skipSpaces rest)).map fun (value, rest) => ((path, key, value), skipSpaces rest)
  | _ => none

/-- The pairs of a table between braces, after its opening brace; no comma follows the last. -/
def readPairs (item : List Char → Option (Value × List Char))
    (done : List (List String × String × Value)) (cs : List Char) :
    Option (List (List String × String × Value) × List Char) :=
  match readPair item cs with
  | none => none
  | some (pair, rest) =>
    match rest with
    | '\x7d' :: rest => some ((pair :: done).reverse, rest)
    | ',' :: rest => if rest.length < cs.length then readPairs item (pair :: done) rest else none
    | _ => none
  termination_by cs.length

/-- A value; arrays and tables may nest `depth` deep in it. -/
def readValue : (depth : Nat) → List Char → Option (Value × List Char)
  | depth, '[' :: rest =>
    match depth with
    | 0 => none
    | depth + 1 => (readItems (readValue depth) [] rest).map fun (items, r) => (.array items, r)
  | depth, '\x7b' :: rest =>
    match depth with
    | 0 => none
    | depth + 1 =>
      match skipSpaces rest with
      | '\x7d' :: rest => some (.table .inline [], rest)
      | rest => (readPairs (readValue depth) [] rest).bind fun (pairs, r) =>
        (inlineTable pairs).map fun value => (value, r)
  | _, '"' :: rest => (readString ('"' :: rest)).map fun (t, r) => (.string t, r)
  | _, '\x27' :: rest => (readString ('\x27' :: rest)).map fun (t, r) => (.string t, r)
  | _, cs => readScalar cs

/-! ## Lines -/

/-- A document as far as it has been read: its root table, and the keys that lead to the table that
the last header opened. -/
structure Draft where
  root : Entries := []
  opened : List String := []

/-- What a line adds to a document, and what follows it up to a comment or the line's end. -/
def readLine (draft : Draft) : List Char → Option (Draft × List Char)
  | '[' :: '[' :: rest =>
    match readKey rest with
    | some (path, key, ']' :: ']' :: rest) =>
      (openElement path key draft.root).map fun root =>
        ({ root, opened := path ++ [key] }, skipSpaces rest)
    | _ => none
  | '[' :: rest =>
    match readKey rest with
    | some (path, key, ']' :: rest) =>
      (openTable path key draft.root).map fun root =>
        ({ root, opened := path ++ [key] }, skipSpaces rest)
    | _ => none
  | cs =>
    match readPair (readValue (maxDepth - 1)) cs with
    | some ((path, key, value), rest) =>
      (addLine draft.opened path key value draft.root).map fun root => ({ draft with root }, rest)
    | none => none

/-- The rest of a line after what it adds: a comment at most. Gives what follows the line's end. -/
def endLine (cs : List Char) : Option (List Char) :=
  match skipComment (skipSpaces cs) with
  | some [] => some []
  | some rest => afterNewline rest
  | none => none

/-- Whether a line adds nothing, that is, ends here or holds a comment only. -/
def isIdleLine (cs : List Char) : Bool :=
  cs.isEmpty || cs.head? == some '#' || (afterNewline cs).isSome

/-- Reads the lines of a document into a draft. -/
def readLines (draft : Draft) (cs : List Char) : Option Entries :=
  let start := skipSpaces cs
  let line := if isIdleLine start then some (draft, start) else readLine draft start
  match line with
  | none => none
  | some (draft, rest) =>
    match endLine rest with
    | none => none
    | some [] => some draft.root
    | some (c :: rest) =>
      if (c :: rest).length < cs.length then readLines draft (c :: rest) else none
  termination_by cs.length

/-- The keys of a document with their values, in document order. A byte order mark may stand in
front. -/
def parse? (text : String) : Option Entries :=
  match text.toList with
  | '\uFEFF' :: rest => readLines {} rest
  | cs => readLines {} cs

end CommitReports.Toml
