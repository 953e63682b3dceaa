import CommitReports.History.Basic

/-!
# Amended histories

A history some of whose answers are fixed in advance. A question with a fixed
answer does not reach the history underneath; all others are passed on to it. An
answer is fixed for one argument of a question, or for every argument that has no
answer of its own.
-/

namespace CommitReports

/-- Fixed answers to one kind of question, by its argument. -/
abbrev FixedAnswers (α : Type) := List (String × Except Failure α)

/-- The argument that stands for every other. -/
def anyArgument : String := "*"

namespace FixedAnswers

/-- The fixed answer to a question, if it has one. -/
def get? {α : Type} (answers : FixedAnswers α) (argument : String) : Option (Except Failure α) :=
  (answers.lookup argument).or (answers.lookup anyArgument)

/-- Fixes the answer for an argument, or sets it free again. -/
def set {α : Type} (answers : FixedAnswers α) (argument : String)
    (answer : Option (Except Failure α)) : FixedAnswers α :=
  let others := answers.filter (·.1 != argument)
  match answer with
  | some answer => (argument, answer) :: others
  | none => others

end FixedAnswers

/-- A history with fixed answers to some questions. -/
structure Amended (ρ : Type) where
  history : ρ
  resolve : FixedAnswers String := []
  commitsBetween : FixedAnswers (List String) := []
  parent : FixedAnswers (Option String) := []
  whatChanged : FixedAnswers String := []
  diff : FixedAnswers String := []
  hasLocalBranch : FixedAnswers Bool := []
  checkout : FixedAnswers Unit := []
  refresh : FixedAnswers Unit := []

namespace Amended

variable {ρ α : Type} [History ρ]

/-- The fixed answer to a question, or else that of the history underneath. -/
def consult (answers : Amended ρ → FixedAnswers α) (argument : String) (question : Action ρ α) :
    Action (Amended ρ) α := do
  match (answers (← Action.resource)).get? argument with
  | some answer => Action.ofExcept answer
  | none => Action.zoom Amended.history (fun history a => { a with history }) question

instance : History (Amended ρ) where
  resolve name := consult Amended.resolve name (History.resolve name)
  commitsBetween since upto :=
    consult Amended.commitsBetween (since ++ ".." ++ upto) (History.commitsBetween since upto)
  parent name := consult Amended.parent name (History.parent name)
  whatChanged name := consult Amended.whatChanged name (History.whatChanged name)
  diff base name :=
    consult Amended.diff (base.getD "empty" ++ ".." ++ name) (History.diff base name)
  hasLocalBranch name := consult Amended.hasLocalBranch name (History.hasLocalBranch name)
  checkout name := consult Amended.checkout name (History.checkout name)
  refresh := consult Amended.refresh "" History.refresh

end Amended

end CommitReports
