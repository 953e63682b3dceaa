import CommitReports.Settings.Error
import CommitReports.Text.Alphanumeric

/-!
# Expansion of paths

A path may name environment variables, as `$NAME` or between braces, where a
default can follow after `:-`; two dollar signs stand for one. What a variable
holds is not expanded again. A tilde that the path itself starts with stands for
the home directory if nothing or a slash follows it once the variables are
replaced.
-/

namespace CommitReports

/-- The environment that a program runs in. -/
structure Environment where
  home : String
  bindings : List (String × String) := []

/-- The value of a variable. -/
def Environment.lookup (env : Environment) (name : String) : Option String :=
  if name = "HOME" then some env.home else env.bindings.lookup name

/-- A part of a path with variables in it. -/
inductive PathPart where
  | literal (text : List Char)
  | reference (name : List Char) (default : Option (List Char))

/-- The text before the first `:-` and the text after it. -/
def splitDefault : List Char → Option (List Char × List Char)
  | ':' :: '-' :: rest => some ([], rest)
  | c :: rest => (splitDefault rest).map fun (a, b) => (c :: a, b)
  | [] => none

/-- The reference between two braces. A default needs a name in front of it. -/
def PathPart.ofBraces (inner : List Char) : PathPart :=
  match splitDefault inner with
  | some (c :: name, default) => .reference (c :: name) (some default)
  | _ => .reference inner none

/-- Whether a character may stand in a name without braces. -/
def isNameChar (c : Char) : Bool := c == '_' || Text.isAlphanumeric c

/-- The parts of a path, in order. -/
def PathPart.split : List Char → List PathPart
  | [] => []
  | '$' :: '$' :: rest => .literal ['$'] :: PathPart.split rest
  | '$' :: '\x7b' :: rest =>
    match h : rest.dropWhile (· != '\x7d') with
    | _ :: after =>
      have : after.length < rest.length + 1 + 1 := by
        have hle := (List.dropWhile_sublist (l := rest) (· != '\x7d')).length_le
        rw [h, List.length_cons] at hle
        omega
      PathPart.ofBraces (rest.takeWhile (· != '\x7d')) :: PathPart.split after
    | [] => .literal ['$', '\x7b'] :: PathPart.split rest
  | '$' :: rest =>
    if rest.takeWhile isNameChar = [] then .literal ['$'] :: PathPart.split rest
    else .reference (rest.takeWhile isNameChar) none :: PathPart.split (rest.dropWhile isNameChar)
  | c :: rest => .literal [c] :: PathPart.split rest
  termination_by cs => cs.length
  decreasing_by
    all_goals simp only [List.length_cons]
    all_goals have hle : ∀ l : List Char, (l.dropWhile isNameChar).length ≤ l.length :=
      fun l => (List.dropWhile_sublist isNameChar).length_le
    all_goals first | omega | exact Nat.lt_succ_of_le (hle _)

/-- The names of the variables that a text refers to. -/
def variableNames (text : String) : List String :=
  (PathPart.split text.toList).filterMap fun
    | .reference name _ => some (String.ofList name)
    | .literal _ => none

/-- The text of a part, or the name of the variable that is missing. -/
def PathPart.text (env : Environment) : PathPart → Except String (List Char)
  | .literal text => .ok text
  | .reference name default =>
    match env.lookup (String.ofList name), default with
    | some value, _ => .ok value.toList
    | none, some default => .ok default
    | none, none => .error (String.ofList name)

/-- A path with its variables replaced. -/
def expandVariables (env : Environment) (path : String) : Except SettingsError (List Char) :=
  match (PathPart.split path.toList).mapM (PathPart.text env) with
  | .ok parts => .ok parts.flatten
  | .error name => .error (.unknownVariable path name)

/-- A path with a tilde in front replaced by the home directory. -/
def expandTilde (env : Environment) : List Char → List Char
  | ['~'] => env.home.toList
  | '~' :: '/' :: rest => env.home.toList ++ '/' :: rest
  | cs => cs

/-- A path with variables and the home directory in their places. -/
def expandPath (env : Environment) (path : String) : Except SettingsError String :=
  match expandVariables env path with
  | .error e => .error e
  | .ok cs =>
    .ok (String.ofList (if path.startsWith "~" then expandTilde env cs else cs))

end CommitReports
