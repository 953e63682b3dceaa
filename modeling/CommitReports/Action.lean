import CommitReports.Failure
import CommitReports.Files.Replacement
import CommitReports.Note

/-!
# Actions

An action works on a site: a resource of its own, the files, and the notes made
so far. It either yields a value or fails; in both cases what it did to the site
stays done. Actions on a part of a resource are actions on the whole (`zoom`), so
a run over a history and a sink is made of actions on the one and on the other.
-/

namespace CommitReports

/-- What an action can see and change. -/
structure Site (ρ : Type) where
  resource : ρ
  files : Files
  notes : List Note := []

/-- A computation on a site that may fail and keeps what it did up to then. -/
abbrev Action (ρ α : Type) := ExceptT Failure (StateM (Site ρ)) α

namespace Action

variable {ρ σ α : Type}

/-- Says something. -/
def say (note : Note) : Action ρ Unit :=
  modify fun site => { site with notes := site.notes ++ [note] }

/-- Adds a record for those who look for faults. -/
def debug (text : String) : Action ρ Unit := say (.record .debug text)

/-- Adds a record on the course of things. -/
def info (text : String) : Action ρ Unit := say (.record .info text)

/-- Adds a record on something that went wrong. -/
def warn (text : String) : Action ρ Unit := say (.record .warn text)

/-- Prints a line. -/
def print (text : Text.Styled) : Action ρ Unit := say (.line text)

/-- The action's own resource. -/
def resource : Action ρ ρ := return (← get).resource

/-- Changes the action's own resource. -/
def change (f : ρ → ρ) : Action ρ Unit :=
  modify fun site => { site with resource := f site.resource }

/-- The files as they are now. -/
def files : Action ρ Files := return (← get).files

/-- Puts changed files in the place of the present ones. -/
def setFiles (files : Files) : Action ρ Unit := modify fun site => { site with files }

/-- A value, or the failure that stands in its place. -/
def ofExcept (result : Except Failure α) : Action ρ α :=
  match result with
  | .ok a => pure a
  | .error e => throw e

/-- An action on a part of a resource, as an action on the whole. -/
def zoom (part : ρ → σ) (update : σ → ρ → ρ) (act : Action σ α) : Action ρ α :=
  ExceptT.mk fun (site : Site ρ) =>
    let (result, inner) := act.run.run { site with resource := part site.resource }
    (result, { inner with resource := update inner.resource site.resource })

/-- An action on the first of two resources. -/
def onFirst {τ : Type} (act : Action ρ α) : Action (ρ × τ) α :=
  zoom Prod.fst (fun first both => (first, both.2)) act

/-- An action on the second of two resources. -/
def onSecond {τ : Type} (act : Action τ α) : Action (ρ × τ) α :=
  zoom Prod.snd (fun second both => (both.1, second)) act

/-- The outcome of an action on a site, and the site afterwards. -/
def perform (act : Action ρ α) (site : Site ρ) : Except Failure α × Site ρ :=
  act.run.run site

/-! ## What each action does to a site -/

@[simp] theorem perform_pure (a : α) (site : Site ρ) :
    (pure a : Action ρ α).perform site = (.ok a, site) := rfl

@[simp] theorem perform_throw (e : Failure) (site : Site ρ) :
    (throw e : Action ρ α).perform site = (.error e, site) := rfl

/-- The second of two actions is made where the first one succeeds. -/
theorem perform_bind {β : Type} (act : Action ρ α) (next : α → Action ρ β) (site : Site ρ) :
    (act >>= next).perform site =
      match act.perform site with
      | (.ok a, site) => (next a).perform site
      | (.error e, site) => (.error e, site) := by
  show (ExceptT.bindCont next (act.perform site).1).run (act.perform site).2 = _
  rcases act.perform site with ⟨⟨e⟩ | ⟨a⟩, site⟩ <;> rfl

/-- What is caught finds the site as the failed action has left it. -/
theorem perform_tryCatch (act : Action ρ α) (handler : Failure → Action ρ α) (site : Site ρ) :
    (tryCatch act handler).perform site =
      match act.perform site with
      | (.ok a, site) => (.ok a, site)
      | (.error e, site) => (handler e).perform site := by
  simp only [perform, tryCatch, tryCatchThe, MonadExceptOf.tryCatch, ExceptT.tryCatch,
    ExceptT.run_mk, StateT.run_bind]
  rcases h : act.run.run site with ⟨⟨e⟩ | ⟨a⟩, site⟩
  · rw [show StateT.run act _ = _ from h]; rfl
  · rw [show StateT.run act _ = _ from h]; rfl

@[simp] theorem perform_say (note : Note) (site : Site ρ) :
    (say note : Action ρ Unit).perform site =
      (.ok (), { site with notes := site.notes ++ [note] }) := rfl

@[simp] theorem perform_resource (site : Site ρ) :
    (resource : Action ρ ρ).perform site = (.ok site.resource, site) := rfl

@[simp] theorem perform_change (f : ρ → ρ) (site : Site ρ) :
    (change f).perform site = (.ok (), { site with resource := f site.resource }) := rfl

@[simp] theorem perform_files (site : Site ρ) :
    (files : Action ρ Files).perform site = (.ok site.files, site) := rfl

@[simp] theorem perform_setFiles (files : Files) (site : Site ρ) :
    (setFiles files : Action ρ Unit).perform site = (.ok (), { site with files }) := rfl

theorem perform_onFirst {τ : Type} (act : Action ρ α) (site : Site (ρ × τ)) :
    (onFirst act : Action (ρ × τ) α).perform site =
      let after := act.perform { site with resource := site.resource.1 }
      (after.1, { after.2 with resource := (after.2.resource, site.resource.2) }) := rfl

theorem perform_onSecond {τ : Type} (act : Action τ α) (site : Site (ρ × τ)) :
    (onSecond act : Action (ρ × τ) α).perform site =
      let after := act.perform { site with resource := site.resource.2 }
      (after.1, { after.2 with resource := (site.resource.1, after.2.resource) }) := rfl

/-- A pair of actions has succeeded if both have. -/
theorem perform_bind_eq_ok {β : Type} {act : Action ρ α} {next : α → Action ρ β}
    {site after : Site ρ} {b : β} :
    (act >>= next).perform site = (.ok b, after) ↔
      ∃ a between, act.perform site = (.ok a, between) ∧ (next a).perform between = (.ok b, after) := by
  rw [perform_bind]
  rcases act.perform site with ⟨⟨e⟩ | ⟨a⟩, between⟩
  · simp
  · simp only [Prod.mk.injEq, Except.ok.injEq]
    constructor
    · exact fun h => ⟨a, between, ⟨rfl, rfl⟩, h⟩
    · rintro ⟨_, _, ⟨rfl, rfl⟩, h⟩
      exact h

/-- A pair of actions has failed if the first one has, or the second one after it. -/
theorem perform_bind_eq_error {β : Type} {act : Action ρ α} {next : α → Action ρ β}
    {site after : Site ρ} {e : Failure} :
    (act >>= next).perform site = (.error e, after) ↔
      act.perform site = (.error e, after) ∨
      ∃ a between, act.perform site = (.ok a, between) ∧
        (next a).perform between = (.error e, after) := by
  rw [perform_bind]
  rcases act.perform site with ⟨⟨e⟩ | ⟨a⟩, between⟩
  · simp
  · simp only [Prod.mk.injEq, Except.ok.injEq, reduceCtorEq, false_and, false_or]
    constructor
    · exact fun h => ⟨a, between, ⟨rfl, rfl⟩, h⟩
    · rintro ⟨_, _, ⟨rfl, rfl⟩, h⟩
      exact h

end Action

end CommitReports
