import CommitReports.Proofs.History.Question

/-!
# Histories that are listened to

An overheard history is a history with the list of all that was said: what it was asked about
single commits with its answers, and what else it was asked. Each question is passed on, so
listening changes neither the answers nor what becomes of the history (`perform_overhear`).
-/

namespace CommitReports

/-- What a history was asked, and what it answered if that is on a single commit. -/
inductive Exchange where
  | parent (commit : String) (answer : Except Failure (Option String))
  | whatChanged (commit : String) (answer : Except Failure String)
  | diff (base : Option String) (tip : String) (answer : Except Failure String)
  | other (question : Question)
  deriving DecidableEq

/-- A history and all that was said, in order. -/
structure Overheard (ρ : Type) where
  history : ρ
  heard : List Exchange := []

namespace Overheard

variable {ρ α : Type}

/-- A site whose history is listened to, where something has been heard. -/
def hearing (heard : List Exchange) (site : Site ρ) : Site (Overheard ρ) :=
  { site with resource := { history := site.resource, heard } }

/-- The same site without the list of what was said. -/
def forget (site : Site (Overheard ρ)) : Site ρ := { site with resource := site.resource.history }

/-- Passes a question on and notes down what was said. -/
def overhear (note : Except Failure α → Exchange) (act : Action ρ α) : Action (Overheard ρ) α :=
  ExceptT.mk fun (site : Site (Overheard ρ)) =>
    let (answer, after) := act.perform (forget site)
    (answer, hearing (site.resource.heard ++ [note answer]) after)

instance [History ρ] : History (Overheard ρ) where
  resolve revision := overhear (fun _ => .other (.resolve revision)) (History.resolve revision)
  commitsBetween since upto :=
    overhear (fun _ => .other (.commitsBetween since upto)) (History.commitsBetween since upto)
  parent commit := overhear (.parent commit) (History.parent commit)
  whatChanged commit := overhear (.whatChanged commit) (History.whatChanged commit)
  diff base tip := overhear (.diff base tip) (History.diff base tip)
  hasLocalBranch name :=
    overhear (fun _ => .other (.hasLocalBranch name)) (History.hasLocalBranch name)
  checkout branch := overhear (fun _ => .other (.checkout branch)) (History.checkout branch)
  refresh := overhear (fun _ => .other .refresh) History.refresh

/-- The answer is that of the history, and what was said is noted down. -/
theorem perform_overhear {note : Except Failure α → Exchange} {act : Action ρ α}
    {heard : List Exchange} {site after : Site ρ} {answer : Except Failure α}
    (h : act.perform site = (answer, after)) :
    (overhear note act).perform (hearing heard site) =
      (answer, hearing (heard ++ [note answer]) after) := by
  show ((act.perform site).1, hearing (heard ++ [note (act.perform site).1]) (act.perform site).2) = _
  rw [h]

end Overheard

end CommitReports
