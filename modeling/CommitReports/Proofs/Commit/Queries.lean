import CommitReports.Commit

/-!
# What a query asks

A query on a handle asks the history for what the handle does not know, and learns it if there
is an answer. What it knows it does not ask for. Finding the patch base is finding the parent,
except that a commit without one is no failure there.
-/

namespace CommitReports

/-- The parent of a commit, on its branch, if there is one. -/
def Commit.parentOf (commit : Commit) : Option String → Except Failure Commit
  | some hash => .ok { hash, branch := commit.branch }
  | none => .error (.noParent commit.hash)

namespace Commit.Handle

variable {ρ : Type} [History ρ] {handle : Handle} {site after : Site ρ}

theorem perform_whatChanged_of_known {text : String} (h : handle.summary = some text) :
    perform whatChanged handle site = ((.ok text, handle), site) := by
  simp only [whatChanged, perform_bind, perform_get, h, perform_pure]

theorem perform_whatChanged_of_unknown {answer : Except Failure String} (h : handle.summary = none)
    (hasked : (History.whatChanged handle.commit.hash : Action ρ String).perform site =
      (answer, after)) :
    perform whatChanged handle site =
      ((answer, { handle with summary := answer.toOption }), after) := by
  simp only [whatChanged, perform_bind, perform_get, h, perform_theCommit, perform_ask, hasked]
  cases answer with
  | error e => simp [Except.toOption, ← h]
  | ok text => simp [Except.toOption]

theorem perform_parentHash_of_known {parent : Option String} (h : handle.parent = some parent) :
    perform parentHash handle site = ((.ok parent, handle), site) := by
  simp only [parentHash, perform_bind, perform_get, h, perform_pure]

theorem perform_parentHash_of_unknown {answer : Except Failure (Option String)}
    (h : handle.parent = none)
    (hasked : (History.parent handle.commit.hash : Action ρ (Option String)).perform site =
      (answer, after)) :
    perform parentHash handle site =
      ((answer, { handle with parent := answer.toOption }), after) := by
  simp only [parentHash, perform_bind, perform_get, h, perform_theCommit, perform_ask, hasked]
  cases answer with
  | error e => simp [Except.toOption, ← h]
  | ok parent => simp [Except.toOption]

theorem perform_parentCommit (handle : Handle) (site : Site ρ) :
    perform parentCommit handle site =
      let found := perform parentHash handle site
      ((found.1.1.bind handle.commit.parentOf, found.1.2), found.2) := by
  simp only [parentCommit, perform_bind, perform_theCommit]
  rcases perform parentHash handle site with ⟨⟨⟨e⟩ | ⟨_ | parent⟩, after⟩, between⟩ <;> rfl

theorem perform_base (handle : Handle) (site : Site ρ) :
    perform base handle site =
      let found := perform parentHash handle site
      match found.1.1 with
      | .ok parent => ((.ok parent, found.1.2), found.2)
      | .error e => ((if e.isNoParent then .ok none else .error e, found.1.2), found.2) := by
  simp only [base, perform_tryCatch, perform_bind, perform_parentCommit]
  rcases perform parentHash handle site with ⟨⟨⟨e⟩ | ⟨_ | parent⟩, after⟩, between⟩
  · cases he : e.isNoParent <;> simp [Except.bind, he]
  · simp [Except.bind, parentOf, Failure.isNoParent]
  · simp [Except.bind, parentOf]

theorem perform_base_of_known {parent : Option String} (h : handle.parent = some parent) :
    perform base handle site = ((.ok parent, handle), site) := by
  rw [perform_base, perform_parentHash_of_known h]

theorem perform_diff (handle : Handle) (site : Site ρ) :
    perform diff handle site =
      match perform base handle site with
      | ((.ok parent, after), between) =>
        let asked := (History.diff parent after.commit.hash : Action ρ String).perform between
        ((asked.1, after), asked.2)
      | ((.error e, after), between) => ((.error e, after), between) := by
  simp only [diff, perform_bind, perform_theCommit, perform_ask]
  rcases perform base handle site with ⟨⟨⟨e⟩ | ⟨parent⟩, after⟩, between⟩ <;> rfl

end Commit.Handle

end CommitReports
