import CommitReports.Git.Repository

/-!
# Names of revisions

A revision is named by the hash of an object, by a reference in full or in short,
or by the first digits of a hash, in this order. Signs behind the name lead on
from there: `^n` to a parent, `~n` to an ancestor by first parents, `^{kind}` to
an object of a kind. `Repository.commitNamed?` is the commit that a name leads to.
-/

namespace CommitReports.Git

/-! ## Names and steps -/

/-- A step from an object to another one. -/
inductive RevisionStep where
  /-- The parent with a number, the first being 1; 0 for the commit itself. -/
  | parent (n : Nat)
  /-- The ancestor a number of first parents away. -/
  | ancestor (n : Nat)
  /-- An object of a kind; of any kind but a tag where none is given. -/
  | peel (kind : Option ObjectKind)
  deriving DecidableEq, Repr

/-- A name with the steps behind it. -/
structure RevisionName where
  base : String
  steps : List RevisionStep
  deriving DecidableEq, Repr

namespace RevisionName

/-- A number at the front, and what follows; 1 where there is none. -/
def readCount (cs : List Char) : Nat × List Char :=
  let digits := cs.takeWhile Char.isDigit
  if digits = [] then (1, cs)
  else (digits.foldl (fun n c => n * 10 + (c.toNat - '0'.toNat)) 0, cs.dropWhile Char.isDigit)

/-- The largest number that may stand in a name. -/
def maxCount : Nat := 2147483647

/-- The kind that is asked for between braces. -/
def readKind (text : List Char) : Option (Option ObjectKind) :=
  if text = [] then some none else (ObjectKind.ofName? (String.ofList text)).map some

/-- Reads the steps behind a name. -/
def readSteps : (fuel : Nat) → List Char → Option (List RevisionStep)
  | _, [] => some []
  | 0, _ => none
  | fuel + 1, '^' :: '\x7b' :: rest =>
    let inside := rest.takeWhile (· != '\x7d')
    match rest.drop inside.length with
    | _ :: rest => do
      let kind ← readKind inside
      return .peel kind :: (← readSteps fuel rest)
    | [] => none
  | fuel + 1, '^' :: rest =>
    let (n, rest) := readCount rest
    if maxCount < n then none else (readSteps fuel rest).map (.parent n :: ·)
  | fuel + 1, '~' :: rest =>
    let (n, rest) := readCount rest
    if maxCount < n then none else (readSteps fuel rest).map (.ancestor n :: ·)
  | _, _ => none

/-- Reads the name of a revision. -/
def ofText? (text : String) : Option RevisionName :=
  if text = "@" then some { base := "HEAD", steps := [] }
  else
    let base := text.toList.takeWhile fun c => c != '^' && c != '~'
    if base = [] ∨ ':' ∈ base ∨ RefName.hasPair '@' '\x7b' base then none
    else (readSteps text.length (text.toList.drop base.length)).map fun steps =>
      { base := String.ofList base, steps }

/-! ## Objects by name -/

/-- The references that a short name may stand for, the first that there is counts. -/
def candidates (name : String) : List String :=
  [name, "refs/" ++ name, "refs/tags/" ++ name, "refs/heads/" ++ name, "refs/remotes/" ++ name,
    "refs/remotes/" ++ name ++ "/HEAD"]

/-- The fewest digits that stand for a hash. -/
def minDigits : Nat := 4

end RevisionName

namespace Repository

open RevisionName

/-- The object that a reference, in full or in short, stands for. -/
def referenceNamed? (repository : Repository) (name : String) : Option ObjectId :=
  (candidates name).findSome? fun candidate =>
    if RefName.isValid candidate then repository.target? candidate else none

/-- The object whose hash begins with some digits, if there is only one. -/
def abbreviated? (repository : Repository) (digits : String) : Option ObjectId :=
  if minDigits ≤ digits.length ∧ digits.length < 40 ∧ digits.all Text.isHexDigit then
    match repository.objects.ids.filter fun id => digits.toLower.toList.isPrefixOf id.hex.toList with
    | [id] => some id
    | _ => none
  else none

/-- The object that a name without steps stands for. -/
def objectNamed? (repository : Repository) (name : String) : Option ObjectId :=
  match (ObjectId.ofText? name).filter repository.objects.contains with
  | some id => some id
  | none =>
    match repository.referenceNamed? name with
    | some id => some id
    | none => repository.abbreviated? name

/-! ## Taking steps -/

/-- The ancestor that is a number of first parents away. -/
def ancestorOf? (repository : Repository) : Nat → ObjectId → Option ObjectId
  | 0, id => some id
  | n + 1, id => do
    let info ← repository.objects.commit? id
    let first ← info.parents.head?
    let _ ← repository.objects.commit? first
    ancestorOf? repository n first

/-- The object that a step leads to. -/
def takeStep? (repository : Repository) (id : ObjectId) : RevisionStep → Option ObjectId
  | .parent n => do
    let commit ← repository.objects.peelTo .commit id
    if n = 0 then some commit
    else do
      let info ← repository.objects.commit? commit
      let parent ← info.parents[n - 1]?
      let _ ← repository.objects.commit? parent
      return parent
  | .ancestor n => do
    let commit ← repository.objects.peelTo .commit id
    ancestorOf? repository n commit
  | .peel (some kind) => repository.objects.peelTo kind id
  -- Without a kind, tags are followed and all else is left as it is.
  | .peel none =>
    [ObjectKind.commit, .tree, .blob].findSome? fun kind =>
      if repository.objects.kind? id = some .tag ∨ repository.objects.kind? id = some kind then
        repository.objects.peelTo kind id
      else none

/-- The commit that the name of a revision leads to. -/
def commitNamed? (repository : Repository) (text : String) : Option ObjectId := do
  let name ← RevisionName.ofText? text
  let start ← repository.objectNamed? name.base
  let _ ← repository.objects.kind? start
  let found ← name.steps.foldlM (fun id step => repository.takeStep? id step) start
  repository.objects.peelTo .commit found

end Repository

end CommitReports.Git
