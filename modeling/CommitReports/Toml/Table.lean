import CommitReports.Toml.Value

/-!
# Building the tables of a document

A line of a document adds to the table that the last header opened. Each key may
be given once; a table may have one header; a dotted key may add only to tables
that dotted keys made, and nothing adds to a table between braces. A table whose
header comes after those of its parts takes its place at the header.
-/

namespace CommitReports.Toml

/-- Puts a value at a key that is there, keeping its place. -/
def replaceEntry (key : String) (value : Value) : Entries → Entries
  | [] => []
  | (k, v) :: rest => if k = key then (k, value) :: rest else (k, v) :: replaceEntry key value rest

/-- Whether a dotted key may add to a table. -/
def Origin.openToDots : Origin → Bool
  | .implied | .dotted => true
  | .header | .inline => false

/-- Acts on the table that a path of keys leads to, making the tables that are missing. `step` is
the origin of those: `dotted` on the way of a dotted key, `implied` on that of a header. The action
is told the origin of the table that it acts on. -/
def within (step : Origin) (act : Origin → Entries → Option Entries) :
    List String → Origin → Entries → Option Entries
  | [], origin, entries => act origin entries
  | key :: path, _, entries =>
    match entries.lookup key with
    | none => (within step act path step []).map fun sub => entries ++ [(key, .table step sub)]
    | some (.table origin sub) =>
      if origin = .inline ∨ (step = .dotted ∧ !origin.openToDots) then none
      else (within step act path origin sub).map fun sub =>
        replaceEntry key (.table origin sub) entries
    | some (.tables elements) =>
      match elements.reverse with
      | [] => none
      | last :: before => (within step act path .header last).map fun last =>
        replaceEntry key (.tables (last :: before).reverse) entries
    | some _ => none

/-- Adds a key with its value to a table. The table must be one that dotted keys made if, and only
if, a dotted key leads to it. -/
def addEntry (path : List String) (key : String) (value : Value) (entries : Entries) :
    Option Entries :=
  within .dotted (fun origin entries =>
    if (origin == .dotted) == path.isEmpty then none
    else if (entries.lookup key).isSome then none
    else some (entries ++ [(key, value)])) path .header entries

/-- Opens a table by its header. -/
def openTable (path : List String) (key : String) (root : Entries) : Option Entries :=
  within .implied (fun _ entries =>
    match entries.lookup key with
    | none => some (entries ++ [(key, .table .header [])])
    | some (.table .implied sub) =>
      some (entries.filter (·.1 != key) ++ [(key, .table .header sub)])
    | some _ => none) path .header root

/-- Opens a further element of an array of tables. -/
def openElement (path : List String) (key : String) (root : Entries) : Option Entries :=
  within .implied (fun _ entries =>
    match entries.lookup key with
    | none => some (entries ++ [(key, .tables [[]])])
    | some (.tables elements) => some (replaceEntry key (.tables (elements ++ [[]])) entries)
    | some _ => none) path .header root

/-- Adds a key with its value to the table that the last header opened. -/
def addLine (opened : List String) (path : List String) (key : String) (value : Value)
    (root : Entries) : Option Entries :=
  within .implied (fun _ entries => addEntry path key value entries) opened .header root

/-- A table between braces, from its keys and values. -/
def inlineTable (pairs : List (List String × String × Value)) : Option Value :=
  (pairs.foldlM (fun entries (path, key, value) => addEntry path key value entries) []).map
    (.table .inline)

end CommitReports.Toml
