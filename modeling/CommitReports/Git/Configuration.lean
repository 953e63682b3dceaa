/-!
# Configurations

A configuration holds values under keys such as `branch.main.remote`. The first
and the last part of a key are the same in either case, what stands between them
is not; the value set last counts.
-/

namespace CommitReports.Git

/-- Values under keys. -/
structure Configuration where
  values : List (String × String) := []
  deriving Repr

namespace Configuration

/-- A key with its first and its last part in lower case. -/
def canonical (key : String) : String :=
  let cs := key.toList
  let first := cs.takeWhile (· != '.')
  let last := (cs.reverse.takeWhile (· != '.')).reverse
  if first.length + last.length < cs.length then
    let middle := (cs.drop first.length).take (cs.length - first.length - last.length)
    String.ofList (first.map Char.toLower ++ middle ++ last.map Char.toLower)
  else key.toLower

/-- The value under a key. -/
def get? (configuration : Configuration) (key : String) : Option String :=
  configuration.values.lookup (canonical key)

/-- Puts a value under a key. -/
def set (configuration : Configuration) (key value : String) : Configuration :=
  { values := (canonical key, value) ::
      configuration.values.filter fun entry => entry.1 != canonical key }

end Configuration

end CommitReports.Git
