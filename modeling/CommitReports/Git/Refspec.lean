import CommitReports.Git.RefName

/-!
# Refspecs

A refspec says which references of a remote are followed, and by which references
here. A star in it stands for any text, on both sides of the colon for the same
one. A plus in front lets a reference move to any commit, not only forward.
-/

namespace CommitReports.Git

/-- A side of a refspec: what stands before and after its star, or a name without one. -/
inductive RefPattern where
  | exact (name : String)
  | star (before after : String)
  deriving DecidableEq, Repr

namespace RefPattern

/-- The pattern that a text spells. -/
def ofText (text : String) : RefPattern :=
  let before := text.toList.takeWhile (· != '*')
  if before.length < text.length then
    .star (String.ofList before) (String.ofList (text.toList.drop (before.length + 1)))
  else .exact text

/-- Whether there is a star. -/
def isStar : RefPattern → Bool
  | .star .. => true
  | .exact _ => false

/-- Whether names come of the pattern. -/
def isValid : RefPattern → Bool
  | .exact name => name = "" || RefName.isShorthand name
  | .star before after => RefName.isShorthand (before ++ "x" ++ after)

/-- What the star stands for in a name; the empty text where there is none. -/
def match? : RefPattern → String → Option String
  | .exact own, name => if own = name then some "" else none
  | .star before after, name =>
    let cs := name.toList
    if before.toList.isPrefixOf cs && after.toList.isSuffixOf cs &&
        decide (before.length + after.length ≤ cs.length) then
      some (String.ofList ((cs.drop before.length).take (cs.length - before.length - after.length)))
    else none

/-- The name with a text in the place of the star. -/
def fill : RefPattern → String → String
  | .exact name, _ => name
  | .star before after, text => before ++ text ++ after

end RefPattern

/-- A refspec. -/
structure Refspec where
  /-- Whether a reference may move other than forward. -/
  forced : Bool
  source : RefPattern
  /-- The reference here; none if nothing is to be moved. -/
  target : Option RefPattern
  deriving DecidableEq, Repr

namespace Refspec

/-- Reads a refspec. -/
def ofText? (text : String) : Option Refspec :=
  let forced := text.startsWith "+"
  let body := text.toList.drop (if forced then 1 else 0)
  let right := (body.reverse.takeWhile (· != ':')).reverse
  if right.length = body.length then
    let source := RefPattern.ofText (String.ofList body)
    if source.isStar || !source.isValid then none else some { forced, source, target := none }
  else
    let source := RefPattern.ofText (String.ofList (body.take (body.length - right.length - 1)))
    let target := RefPattern.ofText (String.ofList right)
    if source.isStar != target.isStar || !source.isValid || !target.isValid then none
    else if right = [] then some { forced, source, target := none }
    else some { forced, source, target := some target }

/-- The reference here that follows one of the remote. -/
def follow? (spec : Refspec) (name : String) : Option String :=
  (spec.source.match? name).bind fun text => spec.target.map fun target => target.fill text

end Refspec

end CommitReports.Git
