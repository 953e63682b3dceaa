import CommitReports.History.Basic
import CommitReports.Proofs.Action.Invariant

/-!
# The questions of a history

`Question` lists what a history can be asked, whatever the history is. A history
keeps a property under some questions if each of them does (`History.Keeps`): a
computation that asks no other questions then keeps the property too, so to say
which properties it keeps is to say what it has asked at most.
-/

namespace CommitReports

/-- What a history can be asked. -/
inductive Question where
  | resolve (revision : String)
  | commitsBetween (since upto : String)
  | parent (commit : String)
  | whatChanged (commit : String)
  | diff (base : Option String) (tip : String)
  | hasLocalBranch (name : String)
  | checkout (branch : String)
  | refresh
  deriving DecidableEq, Repr

namespace Question

/-- Whether a branch is to be shown in the working tree. -/
def isCheckout : Question → Bool
  | checkout _ => true
  | _ => false

/-- Asks a history, whatever the answer is. -/
def ask {ρ : Type} [History ρ] : Question → Action ρ Unit
  | resolve revision => do let _ ← History.resolve revision
  | commitsBetween since upto => do let _ ← History.commitsBetween since upto
  | parent commit => do let _ ← History.parent commit
  | whatChanged commit => do let _ ← History.whatChanged commit
  | diff base tip => do let _ ← History.diff base tip
  | hasLocalBranch name => do let _ ← History.hasLocalBranch name
  | checkout branch => History.checkout branch
  | refresh => History.refresh

end Question

variable {ρ : Type} [History ρ] {I : ρ → Files → Prop} {asked : Question → Prop}

/-- The history leaves a property as it is, whichever of some questions it is asked. -/
def History.Keeps (asked : Question → Prop) (I : ρ → Files → Prop) : Prop :=
  ∀ q, asked q → (q.ask : Action ρ Unit).Keeps I

namespace History.Keeps

omit [History ρ] in
/-- To keep a property does not depend on what becomes of the answer. -/
private theorem of_ignored {α : Type} {act : Action ρ α}
    (h : (do let _ ← act : Action ρ Unit).Keeps I) : act.Keeps I := by
  intro site hsite
  have hafter := h site hsite
  rw [Action.perform_bind] at hafter
  rcases hp : act.perform site with ⟨⟨e⟩ | ⟨a⟩, after⟩ <;> rw [hp] at hafter <;> exact hafter

theorem resolve (h : History.Keeps asked I) {revision : String} (hq : asked (.resolve revision)) :
    (History.resolve revision : Action ρ String).Keeps I := of_ignored (h _ hq)

theorem commitsBetween (h : History.Keeps asked I) {since upto : String}
    (hq : asked (.commitsBetween since upto)) :
    (History.commitsBetween since upto : Action ρ (List String)).Keeps I := of_ignored (h _ hq)

theorem parent (h : History.Keeps asked I) {commit : String} (hq : asked (.parent commit)) :
    (History.parent commit : Action ρ (Option String)).Keeps I := of_ignored (h _ hq)

theorem whatChanged (h : History.Keeps asked I) {commit : String}
    (hq : asked (.whatChanged commit)) :
    (History.whatChanged commit : Action ρ String).Keeps I := of_ignored (h _ hq)

theorem diff (h : History.Keeps asked I) {base : Option String} {tip : String}
    (hq : asked (.diff base tip)) :
    (History.diff base tip : Action ρ String).Keeps I := of_ignored (h _ hq)

theorem hasLocalBranch (h : History.Keeps asked I) {name : String}
    (hq : asked (.hasLocalBranch name)) :
    (History.hasLocalBranch name : Action ρ Bool).Keeps I := of_ignored (h _ hq)

theorem checkout (h : History.Keeps asked I) {branch : String} (hq : asked (.checkout branch)) :
    (History.checkout branch : Action ρ Unit).Keeps I := h _ hq

theorem refresh (h : History.Keeps asked I) (hq : asked .refresh) :
    (History.refresh : Action ρ Unit).Keeps I := h _ hq

end History.Keeps

end CommitReports
