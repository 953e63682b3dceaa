import CommitReports.Files.Basic

/-!
# Replacing a file as a whole

The new content goes into a file of its own beside the old one, which is then
renamed over it. `Replacement.steps` lists the single changes to the disk;
`Files.replace` makes them in order, each of which the disk may refuse, and
removes the file beside the old one if one is refused. Until the last step the path
holds what it held before; from then on it holds the complete new content.
-/

namespace CommitReports

namespace Files

/-- A name that nothing in a directory has, and that is not `own`. -/
def freshName (files : Files) (directory : Place) (own : String) : String :=
  let candidates := (List.range (files.entries.length + 2)).map fun n => ".tmp" ++ toString n
  match candidates.find? fun name =>
      name != own && (files.find? (directory ++ [name])).isNone with
  | some name => name
  | none => ".tmp"

/-- The place that a rename onto a path fills, or why there can be none. -/
def renameTarget (files : Files) (path : String) : Except SystemError Place :=
  if path.contains '\x00' then .error .invalidArgument
  else if path = "" then .error .notFound
  else if maxPathSize ≤ path.utf8ByteSize then .error .nameTooLong
  else
    let reversed := (segmentsOf path).reverse
    let start := if Path.isAbsolute path then [] else files.here
    match reversed.dropWhile (· == "") with
    | [] => .error .deviceBusy
    | name :: above =>
      match files.walkFrom true maxLinks start (above.reverse ++ [""]) with
      | .error e => .error e
      | .ok (.vacant _) => .error .notFound
      | .ok (.entry _ (.file ..)) => .error .notDirectory
      | .ok (.entry _ (.link _)) => .error .notDirectory
      | .ok (.entry directory .directory) =>
        if name = "." ∨ name = ".." then .error .deviceBusy
        else if maxNameSize < name.utf8ByteSize then .error .nameTooLong
        else if reversed.head? = some "" then .error .notDirectory
        else match files.find? (directory ++ [name]) with
          | some .directory => .error .isDirectory
          | _ => .ok (directory ++ [name])

/-- Adds bytes at the end of the file at a place. -/
def extend (files : Files) (place : Place) (bytes : ByteArray) : Files :=
  match files.find? place with
  | some (.file content executable) => files.put place (.file (content ++ bytes) executable)
  | _ => files

/-- Brings what stands at one place to another, over what stands there. -/
def move (files : Files) (source target : Place) : Files :=
  match files.find? source with
  | some entry => (files.erase source).put target entry
  | none => files

end Files

/-- One change to the disk in the course of a replacement. -/
inductive ReplacementStep where
  /-- An empty file appears. -/
  | create (place : Place)
  /-- Bytes are added to a file's end. -/
  | append (place : Place) (bytes : ByteArray)
  /-- What was written reaches the disk; nothing that a reader sees changes. -/
  | sync (place : Place)
  /-- A file takes the place of what a path names. -/
  | rename (source : Place) (path : String)

/-- The disk after a step, and why the step was not made, or not as a whole. -/
def ReplacementStep.perform (files : Files) : ReplacementStep → Option SystemError × Files
  | .create place =>
    match files.refusals.create with
    | some e => (some e, files)
    | none => (none, files.put place (.file .empty false))
  | .append place bytes =>
    match files.refusals.append with
    | some (room, e) =>
      if room < bytes.size then (some e, files.extend place (bytes.extract 0 room))
      else (none, files.extend place bytes)
    | none => (none, files.extend place bytes)
  | .sync _ => (files.refusals.sync, files)
  | .rename source path =>
    match files.renameTarget path with
    | .error e => (some e, files)
    | .ok target =>
      match files.refusals.rename with
      | some e => (some e, files)
      | none => (none, files.move source target)

/-- A replacement that is ready to be made. -/
structure Replacement where
  /-- The path of the directory that holds the file. -/
  directory : String
  /-- Where the new content is collected. -/
  draft : Place
  /-- The path of the file to be replaced. -/
  path : String
  content : ByteArray

namespace Replacement

/-- The changes to the disk that a replacement consists of, in order. -/
def steps (r : Replacement) : List ReplacementStep :=
  [.create r.draft, .append r.draft r.content, .sync r.draft, .rename r.draft r.path]

/-- The path that an error in a step is about. -/
def blamed (r : Replacement) : ReplacementStep → String
  | .create _ => r.directory
  | .append .. => "/" ++ "/".intercalate r.draft
  | .sync _ => "/" ++ "/".intercalate r.draft
  | .rename .. => r.path

/-- Makes some steps in order, up to one that is refused; with the error comes the path that it is
about. -/
def performSteps (r : Replacement) (files : Files) :
    List ReplacementStep → Except (String × SystemError) Unit × Files
  | [] => (.ok (), files)
  | step :: rest =>
    match step.perform files with
    | (none, files) => performSteps r files rest
    | (some e, files) => (.error (r.blamed step, e), files)

/-- Makes a replacement. If a step is refused, the draft is removed. -/
def perform (r : Replacement) (files : Files) : Except (String × SystemError) Unit × Files :=
  match r.performSteps files r.steps with
  | (.ok (), files) => (.ok (), files)
  | (.error e, files) => (.error e, files.erase r.draft)

end Replacement

namespace Files

/-- The replacement of the file at a path; the draft is made in the directory of the path. -/
def replacement (files : Files) (path : String) (content : ByteArray) :
    Except (String × SystemError) Replacement :=
  let directory := Path.directory path
  match files.directoryAt directory with
  | .error e => .error (directory, e)
  | .ok place =>
    let own := (segmentsOf path).getLast?.getD ""
    .ok { directory, draft := place ++ [files.freshName place own], path, content }

/-- Replaces the file at a path by a new one with the given content. -/
def replace (files : Files) (path : String) (content : ByteArray) :
    Except (String × SystemError) Unit × Files :=
  match files.replacement path content with
  | .error e => (.error e, files)
  | .ok r => r.perform files

end Files

end CommitReports
