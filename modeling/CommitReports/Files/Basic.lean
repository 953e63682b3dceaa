import CommitReports.Path
import CommitReports.SystemError

/-!
# Files

The part of the disk that the program sees: what stands at each place, the
directory that relative paths start from, and what the disk refuses to do. A place
is the list of names that leads to it from the root. `walk` follows a path to its
place, through links, and fails as the operating system does; every other
operation is `find?`, `put` or `erase` at a place.
-/

namespace CommitReports

/-- The names that lead from the root to an entry. -/
abbrev Place := List String

/-- What stands at a place. -/
inductive Entry where
  | file (content : ByteArray) (executable : Bool)
  | link (target : String)
  | directory
  deriving Inhabited

/-- Whether an entry is a directory. -/
def Entry.isDirectory : Entry → Bool
  | .directory => true
  | _ => false

/-- What the disk refuses to do for a file that is to be replaced, and why. -/
structure Refusals where
  /-- No new file can be made. -/
  create : Option SystemError := none
  /-- A file takes no more than so many bytes. -/
  append : Option (Nat × SystemError) := none
  /-- What was written cannot be brought to the disk. -/
  sync : Option SystemError := none
  /-- No file can take another one's place. -/
  rename : Option SystemError := none
  deriving DecidableEq, Repr

/-- The entries of the disk, the place that relative paths start from, and what the disk refuses. -/
structure Files where
  entries : List (Place × Entry)
  here : Place
  refusals : Refusals := {}

namespace Files

/-! ## Entries at places -/

/-- No entries but the root and the directories that lead to `here`. -/
def empty (here : Place) : Files :=
  { entries := (List.range here.length).map fun n => (here.take (n + 1), .directory), here }

/-- The entry at a place. The root is a directory. -/
def find? (files : Files) (place : Place) : Option Entry :=
  if place = [] then some .directory else files.entries.lookup place

/-- Puts an entry at a place, over any other. -/
def put (files : Files) (place : Place) (entry : Entry) : Files :=
  { files with entries := (place, entry) :: files.entries.filter (·.1 != place) }

/-- Removes the entry at a place. -/
def erase (files : Files) (place : Place) : Files :=
  { files with entries := files.entries.filter (·.1 != place) }

@[simp] theorem here_put (files : Files) (place : Place) (entry : Entry) :
    (files.put place entry).here = files.here := rfl

@[simp] theorem here_erase (files : Files) (place : Place) :
    (files.erase place).here = files.here := rfl

private theorem lookup_filter_ne {place other : Place} (h : other ≠ place) :
    ∀ entries : List (Place × Entry),
      (entries.filter (·.1 != place)).lookup other = entries.lookup other := by
  intro entries
  induction entries with
  | nil => rfl
  | cons x xs ih =>
    obtain ⟨p, e⟩ := x
    by_cases hp : p = place
    · subst hp
      have hne : (other == p) = false := by simpa using h
      rw [List.filter_cons_of_neg (by simp), List.lookup_cons, hne]
      exact ih
    · rw [List.filter_cons_of_pos (by simpa using hp), List.lookup_cons, List.lookup_cons, ih]

/-- What is put at a place is found there. -/
theorem find?_put_self (files : Files) {place : Place} (entry : Entry) (h : place ≠ []) :
    (files.put place entry).find? place = some entry := by
  simp [find?, put, h]

/-- Putting an entry changes no other place. -/
theorem find?_put_of_ne (files : Files) {place other : Place} (entry : Entry) (h : other ≠ place) :
    (files.put place entry).find? other = files.find? other := by
  have hne : (other == place) = false := by simpa using h
  simp [find?, put, List.lookup_cons, hne, lookup_filter_ne h]

private theorem lookup_filter_self {place : Place} (entries : List (Place × Entry)) :
    (entries.filter (·.1 != place)).lookup place = none := by
  rw [List.lookup_eq_none_iff]
  intro entry hmem
  simpa [bne_comm] using (List.mem_filter.mp hmem).2

/-- Nothing is found where an entry was erased. -/
theorem find?_erase_self (files : Files) {place : Place} (h : place ≠ []) :
    (files.erase place).find? place = none := by
  simp [find?, erase, h, lookup_filter_self]

/-- Erasing an entry changes no other place. -/
theorem find?_erase_of_ne (files : Files) {place other : Place} (h : other ≠ place) :
    (files.erase place).find? other = files.find? other := by
  simp [find?, erase, lookup_filter_ne h]

/-! ## Following paths -/

/-- Where a path leads: to an entry, or to a free name in a directory. -/
inductive Reached where
  | entry (place : Place) (entry : Entry)
  | vacant (place : Place)

/-- The segments of a path, in order. -/
def segmentsOf (path : String) : List String :=
  (Path.segments path.toList).map String.ofList

/-- A name may be at most this many bytes long. -/
def maxNameSize : Nat := 255

/-- Follows segments from a directory. At most `links` links are followed, the last segment's only
if `follow` is set. -/
def walkFrom (files : Files) (follow : Bool) :
    (links : Nat) → Place → List String → Except SystemError Reached
  | _, cur, [] => .ok (.entry cur .directory)
  | links, cur, s :: rest =>
    if s = "" ∨ s = "." then walkFrom files follow links cur rest
    else if s = ".." then walkFrom files follow links cur.dropLast rest
    else if maxNameSize < s.utf8ByteSize then .error .nameTooLong
    else
      match files.find? (cur ++ [s]) with
      | none => if rest = [] then .ok (.vacant (cur ++ [s])) else .error .notFound
      | some .directory => walkFrom files follow links (cur ++ [s]) rest
      | some (.file content executable) =>
        if rest = [] then .ok (.entry (cur ++ [s]) (.file content executable))
        else .error .notDirectory
      | some (.link target) =>
        if rest = [] ∧ !follow then .ok (.entry (cur ++ [s]) (.link target))
        else match links with
          | 0 => .error .tooManyLinks
          | links + 1 =>
            walkFrom files follow links (if Path.isAbsolute target then [] else cur)
              (segmentsOf target ++ rest)
  termination_by links _ segments => (links, segments.length)

/-- The most links that one path may lead through. -/
def maxLinks : Nat := 40

/-- A path must be shorter than this many bytes. -/
def maxPathSize : Nat := 4096

/-- Follows a path to its place. -/
def walk (files : Files) (follow : Bool) (path : String) : Except SystemError Reached :=
  if path.contains '\x00' then .error .nulInName
  else if path = "" then .error .notFound
  else if maxPathSize ≤ path.utf8ByteSize then .error .nameTooLong
  else
    walkFrom files follow maxLinks (if Path.isAbsolute path then [] else files.here)
      (segmentsOf path)

/-! ## Reading and writing by path -/

/-- The bytes of the file at a path. -/
def read (files : Files) (path : String) : Except SystemError ByteArray :=
  match files.walk true path with
  | .error e => .error e
  | .ok (.entry _ (.file content _)) => .ok content
  | .ok (.entry _ .directory) => .error .isDirectory
  | .ok (.entry _ (.link _)) => .error .tooManyLinks
  | .ok (.vacant _) => .error .notFound

/-- The text of the file at a path. -/
def readText (files : Files) (path : String) : Except SystemError String :=
  match files.read path with
  | .error e => .error e
  | .ok bytes =>
    match String.fromUTF8? bytes with
    | some text => .ok text
    | none => .error .notUtf8

/-- The place of the directory at a path. -/
def directoryAt (files : Files) (path : String) : Except SystemError Place :=
  match files.walk true path with
  | .error e => .error e
  | .ok (.entry place .directory) => .ok place
  | .ok (.entry _ _) => .error .notDirectory
  | .ok (.vacant _) => .error .notFound

/-- The place that a file written at a path gets: where the path leads, unless that is a
directory. -/
def writable (files : Files) (path : String) : Except SystemError Place :=
  match files.walk true path with
  | .error e => .error e
  | .ok (.entry _ .directory) => .error .isDirectory
  | .ok (.entry place _) => .ok place
  | .ok (.vacant place) => .ok place

/-- Writes a file at a place, keeping the mode of one that is there. -/
def store (files : Files) (place : Place) (content : ByteArray) : Files :=
  match files.find? place with
  | some (.file _ executable) => files.put place (.file content executable)
  | _ => files.put place (.file content false)

/-- The place that a path leads to, where names that are missing on the way become directories. -/
def makeDirectories (files : Files) (path : String) : Except SystemError (Files × Place) :=
  let start := if Path.isAbsolute path then [] else files.here
  (segmentsOf path).foldlM (fun (files, cur) s =>
    match files.walkFrom true maxLinks cur [s] with
    | .ok (.entry place .directory) => .ok (files, place)
    | .ok (.vacant place) => .ok (files.put place .directory, place)
    | .ok (.entry ..) => .error .notDirectory
    | .error e => .error e) (files, start)

/-- Writes a file at a path, making the directories that lead to it. A path that ends in a slash
names a directory. -/
def provide (files : Files) (path : String) (content : ByteArray) : Except SystemError Files :=
  if path.endsWith "/" then (files.makeDirectories path).map (·.1)
  else do
    let (files, _) ← files.makeDirectories (Path.directory path)
    let place ← files.writable path
    return files.store place content

/-! ## Looking around -/

/-- The entries at the places below a place, by their names from there. -/
def below (files : Files) (place : Place) : List (Place × Entry) :=
  files.entries.filterMap fun (p, e) =>
    if place.length < p.length ∧ p.take place.length = place then some (p.drop place.length, e)
    else none

/-- The name of the directories that hold repositories. -/
def repositoryName : String := ".git"

/-- The paths of all files below a directory, as seen from it and in order, repositories left out. -/
def listing (files : Files) (path : String) : List String :=
  match files.directoryAt path with
  | .error _ => []
  | .ok place =>
    let names := (files.below place).filterMap fun (p, e) =>
      if e.isDirectory || p.contains repositoryName then none else some ("/".intercalate p)
    names.mergeSort fun a b => decide (a ≤ b)

end Files

end CommitReports
