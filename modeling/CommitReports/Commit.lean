import CommitReports.Revision

/-!
# Commits and handles on them

A commit is reported as a pair of a hash and a branch: the same hash on two
branches makes two reports. A handle on a commit keeps what the history has
answered about it, each answer on its own. A question that is answered once is
not asked again; one that failed is. A copy of a handle has the answers that the
handle had when it was copied, and no others.
-/

namespace CommitReports

/-- A commit on the branch that it is reported on. -/
structure Commit where
  hash : String
  branch : Branch
  deriving DecidableEq, Repr

namespace Commit

/-- How a commit is shown, and what a state file holds for it: the branch and the hash. -/
def line (commit : Commit) : String := commit.branch.name ++ " " ++ commit.hash

variable {ρ : Type} [History ρ]

/-- The commit with a hash that resolves. -/
def lookup (hash : String) (branch : Branch) : Action ρ Commit := do
  let revision ← Revision.lookup hash
  return { hash := revision.name, branch }

/-- The commits that can be reached from the tip of a branch and not from this commit, newest
first. Each hash is verified. -/
def newCommitsSince (commit : Commit) (tip : Branch) : Action ρ (List Commit) := do
  let hashes ← History.commitsBetween commit.hash tip.name
  hashes.mapM fun hash => lookup hash tip

/-- A commit with what the history has answered about it. -/
structure Handle where
  commit : Commit
  /-- The first parent, or that there is none, once known. -/
  parent : Option (Option String) := none
  /-- What the commit says of itself, once known. -/
  summary : Option String := none
  deriving DecidableEq, Repr

namespace Handle

/-- A computation on a site and a handle. What the handle has learned stays, also on failure. -/
abbrev Query (ρ α : Type) := ExceptT Failure (StateT Handle (StateM (Site ρ))) α

/-- An action, as a query that leaves the handle as it is. -/
def ask {ρ α : Type} (act : Action ρ α) : Query ρ α :=
  ExceptT.mk fun handle => do
    let result ← act.run
    return (result, handle)

/-- The handle's commit. -/
def theCommit {ρ : Type} : Query ρ Commit := return (← get).commit

/-- What the commit says of itself; asked until it is answered once. -/
def whatChanged : Query ρ String := do
  match (← get).summary with
  | some text => return text
  | none =>
    let text ← ask (History.whatChanged (← theCommit).hash)
    modify fun handle => { handle with summary := some text }
    return text

/-- The hash of the first parent, if there is one; asked until it is answered once. -/
def parentHash : Query ρ (Option String) := do
  match (← get).parent with
  | some parent => return parent
  | none =>
    let parent ← ask (History.parent (← theCommit).hash)
    modify fun handle => { handle with parent := some parent }
    return parent

/-- The first parent, on the same branch; fails for the first commit of a history. -/
def parentCommit : Query ρ Commit := do
  let commit ← theCommit
  match ← parentHash with
  | some hash => return { hash, branch := commit.branch }
  | none => throw (.noParent commit.hash)

/-- The patch from another commit to this one. -/
def diffAgainst (other : Commit) : Query ρ String := do
  ask (History.diff (some other.hash) (← theCommit).hash)

/-- What a patch of this commit starts from: the first parent, or nothing if there is none. -/
def base : Query ρ (Option String) :=
  tryCatch (do return some (← parentCommit).hash) fun e =>
    if e.isNoParent then return none else throw e

/-- The patch of this commit. -/
def diff : Query ρ String := do
  let base ← base
  ask (History.diff base (← theCommit).hash)

/-- The outcome of a query on a site, the handle and the site afterwards. -/
def perform {α : Type} (query : Query ρ α) (handle : Handle) (site : Site ρ) :
    (Except Failure α × Handle) × Site ρ :=
  (query.run.run handle).run site

/-! ### What each query does -/

omit [History ρ]


@[simp] theorem perform_pure {α : Type} (a : α) (handle : Handle) (site : Site ρ) :
    perform (pure a : Query ρ α) handle site = ((.ok a, handle), site) := rfl

@[simp] theorem perform_throw {α : Type} (e : Failure) (handle : Handle) (site : Site ρ) :
    perform (throw e : Query ρ α) handle site = ((.error e, handle), site) := rfl

@[simp] theorem perform_ask {α : Type} (act : Action ρ α) (handle : Handle) (site : Site ρ) :
    perform (ask act) handle site = (((act.perform site).1, handle), (act.perform site).2) := rfl

@[simp] theorem perform_theCommit (handle : Handle) (site : Site ρ) :
    perform theCommit handle site = ((.ok handle.commit, handle), site) := rfl

@[simp] theorem perform_modify (f : Handle → Handle) (handle : Handle) (site : Site ρ) :
    perform (modify f : Query ρ PUnit) handle site = ((.ok ⟨⟩, f handle), site) := rfl

@[simp] theorem perform_get (handle : Handle) (site : Site ρ) :
    perform (get : Query ρ Handle) handle site = ((.ok handle, handle), site) := rfl

theorem perform_bind {α β : Type} (query : Query ρ α) (next : α → Query ρ β) (handle : Handle)
    (site : Site ρ) :
    perform (query >>= next) handle site =
      match perform query handle site with
      | ((.ok a, handle), site) => perform (next a) handle site
      | ((.error e, handle), site) => ((.error e, handle), site) := by
  show (StateT.run (ExceptT.bindCont next (perform query handle site).1.1)
    (perform query handle site).1.2).run (perform query handle site).2 = _
  rcases perform query handle site with ⟨⟨⟨e⟩ | ⟨a⟩, handle⟩, site⟩ <;> rfl

theorem perform_tryCatch {α : Type} (query : Query ρ α) (handler : Failure → Query ρ α)
    (handle : Handle) (site : Site ρ) :
    perform (tryCatch query handler) handle site =
      match perform query handle site with
      | ((.ok a, handle), site) => ((.ok a, handle), site)
      | ((.error e, handle), site) => perform (handler e) handle site := by
  simp only [perform, tryCatch, tryCatchThe, MonadExceptOf.tryCatch, ExceptT.tryCatch,
    ExceptT.run_mk, StateT.run_bind]
  rcases h : (query.run.run handle).run site with ⟨⟨⟨e⟩ | ⟨a⟩, handle⟩, site⟩
  · rw [show StateT.run (StateT.run query _) _ = _ from h]; rfl
  · rw [show StateT.run (StateT.run query _) _ = _ from h]; rfl

end Handle

end Commit

end CommitReports
