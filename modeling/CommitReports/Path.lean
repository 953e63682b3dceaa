/-!
# Paths as texts

A path is a text whose segments stand between slashes. Empty segments and single
dots say nothing, except for a leading slash, which makes the path absolute, and
a leading dot, which is kept as the path's first component. `components` is what
a path means, `parent?` and `join` are defined on the text and keep its spelling.
-/

namespace CommitReports.Path

/-- The segments of a text between its slashes, empty ones included. -/
def segments : List Char → List (List Char)
  | [] => [[]]
  | '/' :: rest => [] :: segments rest
  | c :: rest =>
    match segments rest with
    | [] => [[c]]
    | segment :: more => (c :: segment) :: more

/-- The text with the given segments between its slashes. -/
def unsegments : List (List Char) → List Char
  | [] => []
  | [segment] => segment
  | segment :: more => segment ++ '/' :: unsegments more

/-- The part of a path that no step up removes before the others: the root slash, or a leading
dot. -/
def splitAnchor : List Char → List Char × List Char
  | '/' :: rest => (['/'], rest)
  | '.' :: '/' :: rest => (['.'], '/' :: rest)
  | ['.'] => (['.'], [])
  | cs => ([], cs)

/-- A segment that leaves the path where it is. -/
def isIdle (segment : List Char) : Bool := segment == [] || segment == ['.']

/-- The path without its last component, spelled as it is up to there; the root and the empty path
have none. -/
def parentChars (cs : List Char) : Option (List Char) :=
  let (anchor, body) := splitAnchor cs
  match (segments body).reverse.dropWhile isIdle with
  | [] => if anchor = ['.'] then some [] else none
  | _ :: rest => some (anchor ++ unsegments (rest.dropWhile isIdle).reverse)

/-- The path without its last component; the root and the empty path have none. -/
def parent? (path : String) : Option String := (parentChars path.toList).map String.ofList

/-- The directory that holds what a path names: its parent, or the current directory where the
parent is empty or missing. -/
def directory (path : String) : String :=
  match parent? path with
  | some parent => if parent = "" then "." else parent
  | none => "."

/-- Whether a path starts at the root. -/
def isAbsolute (path : String) : Bool := path.startsWith "/"

/-- `path` as seen from the directory `base`; an absolute path stays as it is. -/
def join (base path : String) : String :=
  if isAbsolute path then path
  else if base = "" || base.endsWith "/" then base ++ path
  else base ++ "/" ++ path

/-- A step of a path. -/
inductive Component where
  | root
  | here
  | up
  | name (text : List Char)
  deriving DecidableEq, Repr

/-- The step that a segment stands for; none for an idle one. -/
def Component.ofSegment (segment : List Char) : Option Component :=
  if isIdle segment then none
  else if segment = ['.', '.'] then some .up
  else some (.name segment)

/-- The steps of a path. Two paths are the same if their steps are. -/
def components (path : String) : List Component :=
  let (anchor, body) := splitAnchor path.toList
  let first := if anchor = ['/'] then [Component.root] else if anchor = ['.'] then [.here] else []
  first ++ (segments body).filterMap Component.ofSegment

end CommitReports.Path
