import CommitReports.Digest.Sha1
import CommitReports.Text.Hexadecimal

/-!
# Objects

What a repository stores: the content of files, trees of named entries, commits
and tags. An object's id is the digest of its kind, its size and its content, so
that equal objects have one id. Commits and tags are kept as the text that they
were written with; `Git.CommitText` reads it.
-/

namespace CommitReports.Git

/-! ## Ids -/

/-- The name of an object: forty digits to base sixteen, in lower case. -/
structure ObjectId where
  hex : String
  deriving DecidableEq, Repr, Inhabited

namespace ObjectId

/-- The id that stands for no object. -/
def zero : ObjectId := ⟨String.ofList (List.replicate 40 '0')⟩

/-- The id that a text of forty digits of either case spells. -/
def ofText? (text : String) : Option ObjectId :=
  if text.length = 40 ∧ text.all Text.isHexDigit then some ⟨text.toLower⟩ else none

/-- What spells an id is written in digits. -/
theorem isHexDigit_of_ofText? {text : String} {id : ObjectId} (h : ofText? text = some id) :
    ∀ c ∈ text.toList, Text.isHexDigit c = true := by
  unfold ofText? at h
  split at h
  next hspelled => simpa [String.all_bool_eq] using hspelled.2
  next => cases h

/-- The first seven digits. -/
def abbreviation (id : ObjectId) : String := (id.hex.take 7).toString

/-- The twenty bytes of an id. -/
def bytes (id : ObjectId) : ByteArray := ⟨(Text.hexBytes id.hex.toList).toArray⟩

end ObjectId

/-! ## Entries of trees -/

/-- What an entry of a tree is. -/
inductive FileMode where
  | regular
  | executable
  | link
  /-- A commit of another repository. -/
  | submodule
  | directory
  deriving DecidableEq, Repr

namespace FileMode

/-- The mode as six octal digits. -/
def octal : FileMode → String
  | .regular => "100644"
  | .executable => "100755"
  | .link => "120000"
  | .submodule => "160000"
  | .directory => "040000"

/-- The mode as it stands in a tree, without a zero in front. -/
def inTree : FileMode → String
  | .directory => "40000"
  | mode => mode.octal

/-- The mode with the given octal digits. -/
def ofOctal? (text : String) : Option FileMode :=
  [regular, executable, link, submodule, directory].find? fun mode =>
    text == mode.octal || text == mode.inTree

/-- Whether two modes are of one type of file: an executable file is a file. -/
def sameType : FileMode → FileMode → Bool
  | .regular, .executable => true
  | .executable, .regular => true
  | a, b => a == b

end FileMode

/-- A name in a tree. -/
structure TreeEntry where
  name : String
  mode : FileMode
  id : ObjectId
  deriving DecidableEq, Repr

/-- What a tree is ordered by: the name, a directory's with a slash behind it. -/
def TreeEntry.orderKey (entry : TreeEntry) : String :=
  if entry.mode = .directory then entry.name ++ "/" else entry.name

/-! ## Kinds of objects -/

/-- The kinds of objects. -/
inductive ObjectKind where
  | commit
  | tree
  | blob
  | tag
  deriving DecidableEq, Repr

namespace ObjectKind

/-- The name of a kind. -/
def name : ObjectKind → String
  | .commit => "commit"
  | .tree => "tree"
  | .blob => "blob"
  | .tag => "tag"

/-- The kind with the given name. -/
def ofName? (text : String) : Option ObjectKind :=
  [commit, tree, blob, tag].find? fun kind => kind.name == text

/-- The number of a kind. -/
def number : ObjectKind → Nat
  | .commit => 1
  | .tree => 2
  | .blob => 3
  | .tag => 4

end ObjectKind

/-! ## Objects -/

/-- An object. -/
inductive Object where
  | blob (content : ByteArray)
  | tree (entries : List TreeEntry)
  | commit (text : ByteArray)
  | tag (text : ByteArray)
  deriving Inhabited

namespace Object

/-- The kind of an object. -/
def kind : Object → ObjectKind
  | .blob _ => .blob
  | .tree _ => .tree
  | .commit _ => .commit
  | .tag _ => .tag

/-- The bytes that an object is stored as. -/
def content : Object → ByteArray
  | .blob content => content
  | .commit text => text
  | .tag text => text
  | .tree entries =>
    entries.foldl (fun bytes entry =>
      bytes ++ (entry.mode.inTree ++ " " ++ entry.name ++ "\x00").toUTF8 ++ entry.id.bytes) .empty

/-- The id of an object. -/
def id (object : Object) : ObjectId :=
  let content := object.content
  ⟨Digest.sha1 (s!"{object.kind.name} {content.size}\x00".toUTF8 ++ content)⟩

/-- The tree of some entries, brought into order. -/
def ofEntries (entries : List TreeEntry) : Object :=
  .tree (entries.mergeSort fun a b => decide (a.orderKey ≤ b.orderKey))

end Object

end CommitReports.Git
