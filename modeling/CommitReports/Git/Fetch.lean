import CommitReports.Git.Refspec
import CommitReports.Git.Walk

/-!
# Fetching

A remote is another repository under a name, with refspecs that say which of its
references are followed here. Fetching copies objects, moves the references that
follow those of the remote, and adds tags of objects that are here; nothing is
removed.
-/

namespace CommitReports.Git

/-! ## Remotes -/

/-- A remote as it is configured. -/
structure Remote where
  url : String
  refspecs : List Refspec
  deriving Repr

/-- Why a remote cannot be used. -/
inductive RemoteFault where
  /-- The name cannot be handed over, as it contains the character that ends texts. -/
  | nulInName
  | badName (name : String)
  | unknown (name : String)
  | badRefspec (text : String)
  | noUrl (name : String)
  /-- A reference of the remote leads to one that is not there. -/
  | dangling (name : String)
  deriving DecidableEq, Repr

/-- The wording of a fault. -/
def RemoteFault.message : RemoteFault → String
  | .nulInName => "data contained a nul byte that could not be represented as a string"
  | .badName name => s!"\x27{name}\x27 is not a valid remote name."
  | .unknown name => s!"remote \x27{name}\x27 does not exist"
  | .badRefspec text => s!"\x27{text}\x27 is not a valid refspec."
  | .noUrl name => s!"malformed remote \x27{name}\x27 - missing fetch URL"
  | .dangling name => s!"reference \x27{name}\x27 not found"

/-- A reference of a remote, with the object that it stands for. -/
structure RemoteHead where
  name : String
  id : ObjectId
  deriving DecidableEq, Repr

namespace Remote

/-- Whether a reference of a remote is followed, or is `HEAD` where nothing else is asked for. -/
def wants (remote : Remote) (head : RemoteHead) : Bool :=
  RefName.isValid head.name &&
    if remote.refspecs.isEmpty then head.name == "HEAD"
    else remote.refspecs.any fun spec => (spec.source.match? head.name).isSome

end Remote

namespace RemoteHead

/-- Whether a reference of a remote is a tag. -/
def isTag (head : RemoteHead) : Bool := head.name.startsWith "refs/tags/"

end RemoteHead

namespace ObjectStore

/-! ## Copying objects -/

/-- The objects that an object mentions. Those of other repositories are none of them. -/
def mentioned (objects : ObjectStore) (id : ObjectId) : List ObjectId :=
  match objects.find? id with
  | some (.tree entries) =>
    entries.filterMap fun entry => if entry.mode = .submodule then none else some entry.id
  | some (.commit _) =>
    match objects.commit? id with
    | some info => info.tree :: info.parents
    | none => []
  | some (.tag _) => ((objects.tag? id).map fun tag => [tag.target]).getD []
  | _ => []

/-- Adds all objects that some objects of another store lead to. -/
def copyFrom (store source : ObjectStore) (ids : List ObjectId) : ObjectStore :=
  let graph : Graph ObjectId := source.ids.map fun id => (id, mentioned source id)
  (graph.visit [] ids).foldl (fun store id =>
    match source.find? id with
    | some object => store.put id object
    | none => store) store

end ObjectStore

namespace Repository

/-! ## Fetching -/

/-- The remote of a name. -/
def remoteNamed (repository : Repository) (name : String) : Except RemoteFault Remote :=
  if name.contains '\x00' then .error .nulInName
  else if !RefName.isValid ("refs/remotes/" ++ name ++ "/test") then .error (.badName name)
  else
    let pushOnly := (repository.configuration.get? s!"remote.{name}.pushurl").map fun _ => ""
    match (repository.configuration.get? s!"remote.{name}.url").or pushOnly with
    | none => .error (.unknown name)
    | some url =>
      match repository.configuration.get? s!"remote.{name}.fetch" with
      | none => .ok { url, refspecs := [] }
      | some text =>
        match Refspec.ofText? text with
        | none => .error (.badRefspec text)
        | some spec => .ok { url, refspecs := [spec] }

/-- What others see of a repository: `HEAD`, if it leads to an object, and all references, each of
which must lead to one. -/
def remoteHeads (repository : Repository) : Except RemoteFault (List RemoteHead) := do
  let names := (repository.refs.map (·.1)).mergeSort fun a b => decide (a ≤ b)
  let heads ← names.mapM fun name =>
    match repository.target? name with
    | some id => .ok { name := name, id := id }
    | none => .error (.dangling (repository.lastName maxLevels name))
  return ((repository.target? "HEAD").map fun id => { name := "HEAD", id }).toList ++ heads

/-- Follows one reference of a remote. A tag is added if its object is here, and never moved. -/
def followHead (spec : Option Refspec) (repository : Repository) (head : RemoteHead) : Repository :=
  if !RefName.isValid head.name then repository
  -- A tag's name is its own here, whatever the refspec says.
  else if head.isTag then
    if repository.objects.contains head.id && (repository.ref? head.name).isNone then
      repository.setRef head.name (.object head.id)
    else repository
  else match spec.bind fun spec => (spec.follow? head.name).map fun name => (spec, name) with
    | none => repository
    | some (spec, name) =>
      match repository.target? name with
      | none => repository.setRef name (.object head.id)
      | some old =>
        let forward := match repository.isDescendant head.id old with
          | .ok forward => forward
          | .error _ => true
        if old = head.id ∨ !(spec.forced || forward) then repository
        else repository.setRef name (.object head.id)

/-- Fetches references from a remote that is the given repository. -/
def fetchHeads (repository : Repository) (remote : Remote) (other : Repository)
    (heads : List RemoteHead) : Repository :=
  let wanted := heads.filter remote.wants
  -- Where everything that is asked for is here, no object is copied, not even a tag's.
  let repository :=
    if wanted.all fun head => repository.objects.contains head.id then repository
    else { repository with
      objects := repository.objects.copyFrom other.objects (heads.map (·.id)) }
  let specs := if remote.refspecs.isEmpty then [none] else remote.refspecs.map some
  specs.foldl (fun repository spec => heads.foldl (followHead spec) repository) repository

/-- Fetches from a remote that is the given repository. -/
def fetch (repository : Repository) (remote : Remote) (other : Repository) :
    Except RemoteFault Repository :=
  other.remoteHeads.map (repository.fetchHeads remote other)

/-! ## What a branch follows -/

/-- The reference that a local branch follows, by its configuration: that of the remote it is
taken from, or a reference of this repository. -/
def followedName? (repository : Repository) (branch : String) : Option String := do
  let short := String.ofList (branch.toList.drop RefName.heads.length)
  let remote ← repository.configuration.get? s!"branch.{short}.remote"
  let merge ← repository.configuration.get? s!"branch.{short}.merge"
  if remote = "" ∨ merge = "" then none
  else if remote = "." then RefName.normalize? merge
  else do
    let remote ← (repository.remoteNamed remote).toOption
    let spec ← remote.refspecs.find? fun spec => (spec.source.match? merge).isSome
    RefName.normalize? (← spec.follow? merge)

/-- The object that the reference stands for which a local branch follows; none if it stands for
another reference. -/
def followed? (repository : Repository) (branch : String) : Option ObjectId := do
  match ← repository.ref? (← repository.followedName? branch) with
  | .object id => some id
  | .reference _ => none

end Repository

end CommitReports.Git
