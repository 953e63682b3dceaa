import CommitReports.Action
import Mathlib.Data.List.Forall2

/-!
# Actions side by side

Two actions *simulate* each other under a relation of sites if from related sites both
have the same outcome and leave related sites behind, also where they fail
(`Action.Simulates`). They *agree* if they fail alike or succeed alike, and what holds
of the sites after a success may differ from what held before (`Action.Agrees`). They are
*parallel* if they fail alike or succeed alike, with values that are not the same but
related, and leave related sites behind (`Action.Parallels`).

An action is *oblivious* if it does not look at the notes that were made before it and
only adds to them (`Action.Oblivious`): on sites that differ in their notes alone, it
does the same.
-/

namespace CommitReports

/-- The site with a second resource beside its own. -/
def Site.beside {ρ τ : Type} (site : Site ρ) (second : τ) : Site (ρ × τ) :=
  { site with resource := (site.resource, second) }

/-- Sites with pairs of resources, of which the first are related as whole sites and the second as
resources. -/
def Site.Paired {ρ σ τ υ : Type} (R : Site ρ → Site σ → Prop) (S : τ → υ → Prop)
    (site : Site (ρ × τ)) (site' : Site (σ × υ)) : Prop :=
  R { site with resource := site.resource.1 } { site' with resource := site'.resource.1 } ∧
    S site.resource.2 site'.resource.2

namespace Action

variable {ρ σ τ υ α β : Type} {R : Site ρ → Site σ → Prop}

/-! ## Simulation -/

/-- From related sites, both actions have the same outcome and leave related sites behind. -/
def Simulates (R : Site ρ → Site σ → Prop) (act : Action ρ α) (act' : Action σ α) : Prop :=
  ∀ site site', R site site' → (act.perform site).1 = (act'.perform site').1 ∧
    R (act.perform site).2 (act'.perform site').2

namespace Simulates

/-- An action simulates itself from one and the same site. -/
theorem refl (act : Action ρ α) : act.Simulates (fun site site' => site' = site) act := by
  intro site _ h
  subst h
  exact ⟨rfl, rfl⟩

theorem pure (a : α) : (pure a : Action ρ α).Simulates R (pure a) := fun _ _ h => ⟨rfl, h⟩

theorem throw (e : Failure) : (throw e : Action ρ α).Simulates R (throw e) := fun _ _ h => ⟨rfl, h⟩

theorem bind {act : Action ρ α} {act' : Action σ α} {next : α → Action ρ β} {next' : α → Action σ β}
    (hact : act.Simulates R act') (hnext : ∀ a, (next a).Simulates R (next' a)) :
    (act >>= next).Simulates R (act' >>= next') := by
  intro site site' h
  obtain ⟨hresult, hbetween⟩ := hact site site' h
  rw [perform_bind, perform_bind]
  rcases hp : act.perform site with ⟨⟨e⟩ | ⟨a⟩, between⟩ <;>
    rcases hp' : act'.perform site' with ⟨⟨e'⟩ | ⟨a'⟩, between'⟩ <;>
    rw [hp, hp'] at hresult hbetween <;> cases hresult
  · exact ⟨rfl, hbetween⟩
  · exact hnext a between between' hbetween

theorem tryCatch {act : Action ρ α} {act' : Action σ α} {handler : Failure → Action ρ α}
    {handler' : Failure → Action σ α} (hact : act.Simulates R act')
    (hhandler : ∀ e, (handler e).Simulates R (handler' e)) :
    (tryCatch act handler).Simulates R (tryCatch act' handler') := by
  intro site site' h
  obtain ⟨hresult, hbetween⟩ := hact site site' h
  rw [perform_tryCatch, perform_tryCatch]
  rcases hp : act.perform site with ⟨⟨e⟩ | ⟨a⟩, between⟩ <;>
    rcases hp' : act'.perform site' with ⟨⟨e'⟩ | ⟨a'⟩, between'⟩ <;>
    rw [hp, hp'] at hresult hbetween <;> cases hresult
  · exact hhandler e between between' hbetween
  · exact ⟨rfl, hbetween⟩

theorem mapM {f : α → Action ρ β} {f' : α → Action σ β} (hf : ∀ a, (f a).Simulates R (f' a)) :
    ∀ l : List α, (l.mapM f).Simulates R (l.mapM f') := by
  intro l
  induction l with
  | nil => exact pure _
  | cons a l ih =>
    rw [List.mapM_cons, List.mapM_cons]
    exact (hf a).bind fun b => ih.bind fun bs => pure _

theorem forM {f : α → Action ρ PUnit} {f' : α → Action σ PUnit}
    (hf : ∀ a, (f a).Simulates R (f' a)) : ∀ l : List α, (l.forM f).Simulates R (l.forM f') := by
  intro l
  simp only [List.forM_eq_forM]
  induction l with
  | nil => exact pure _
  | cons a l ih =>
    rw [List.forM_cons, List.forM_cons]
    exact (hf a).bind fun _ => ih

/-- Actions that simulate each other beside any second resources do so on the pairs. -/
theorem onFirst {R : Site (ρ × τ) → Site (σ × υ) → Prop} {act : Action ρ α} {act' : Action σ α}
    (h : ∀ second second', act.Simulates
      (fun site site' => R (site.beside second) (site'.beside second')) act') :
    (onFirst act : Action (ρ × τ) α).Simulates R (onFirst act') :=
  fun site site' hsites => h site.resource.2 site'.resource.2
    { site with resource := site.resource.1 } { site' with resource := site'.resource.1 } hsites

theorem paired {R : Site ρ → Site σ → Prop} {S : τ → υ → Prop} {act : Action ρ α}
    {act' : Action σ α} (h : act.Simulates R act') :
    (Action.onFirst act : Action (ρ × τ) α).Simulates (Site.Paired R S) (Action.onFirst act') := by
  rintro site site' ⟨hfirst, hsecond⟩
  obtain ⟨hresult, hafter⟩ := h _ _ hfirst
  exact ⟨hresult, hafter, hsecond⟩

end Simulates

/-! ## Agreement -/

/-- From sites that are related as given, both actions fail alike, or both have the same value and
leave sites behind that are related as this value says. -/
def Agrees (P : Site ρ → Site σ → Prop) (act : Action ρ α) (act' : Action σ α)
    (Q : α → Site ρ → Site σ → Prop) : Prop :=
  ∀ site site', P site site' →
    (∃ e, (act.perform site).1 = .error e ∧ (act'.perform site').1 = .error e) ∨
    ∃ a, (act.perform site).1 = .ok a ∧ (act'.perform site').1 = .ok a ∧
      Q a (act.perform site).2 (act'.perform site').2

namespace Agrees

variable {P : Site ρ → Site σ → Prop} {Q : α → Site ρ → Site σ → Prop}
  {S : β → Site ρ → Site σ → Prop} {act : Action ρ α} {act' : Action σ α}

theorem of_simulates (h : act.Simulates P act') : act.Agrees P act' fun _ => P := by
  intro site site' hsites
  obtain ⟨hresult, hafter⟩ := h site site' hsites
  cases hp : (act.perform site).1 with
  | error e => exact .inl ⟨e, rfl, hresult.symm.trans hp⟩
  | ok a => exact .inr ⟨a, rfl, hresult.symm.trans hp, hafter⟩

theorem pure (a : α) (h : ∀ site site', P site site' → Q a site site') :
    (pure a : Action ρ α).Agrees P (pure a) Q :=
  fun site site' hsites => .inr ⟨a, rfl, rfl, h site site' hsites⟩

theorem bind {next : α → Action ρ β} {next' : α → Action σ β} (hact : act.Agrees P act' Q)
    (hnext : ∀ a, (next a).Agrees (Q a) (next' a) S) :
    (act >>= next).Agrees P (act' >>= next') S := by
  intro site site' hsites
  have hbetween := hact site site' hsites
  rw [perform_bind, perform_bind]
  rcases hp : act.perform site with ⟨result, between⟩
  rcases hp' : act'.perform site' with ⟨result', between'⟩
  rw [hp, hp'] at hbetween
  rcases hbetween with ⟨e, rfl, rfl⟩ | ⟨a, rfl, rfl, hbetween⟩
  · exact .inl ⟨e, rfl, rfl⟩
  · exact hnext a between between' hbetween

/-- What is assumed may hold a fact that has nothing to do with the sites. -/
theorem of_fact {F : Prop} (h : F → act.Agrees P act' Q) :
    act.Agrees (fun s t => F ∧ P s t) act' Q :=
  fun site site' hsites => h hsites.1 site site' hsites.2

end Agrees

/-! ## Parallel courses -/

/-- Both have failed alike, or both have a value and the values are related. -/
inductive Likewise (V : α → β → Prop) : Except Failure α → Except Failure β → Prop
  | error (e : Failure) : Likewise V (.error e) (.error e)
  | ok {a : α} {b : β} (h : V a b) : Likewise V (.ok a) (.ok b)

theorem Likewise.mono {V W : α → β → Prop} (hV : ∀ a b, V a b → W a b)
    {result : Except Failure α} {result' : Except Failure β} (h : Likewise V result result') :
    Likewise W result result' := by
  cases h with
  | error e => exact .error e
  | ok h => exact .ok (hV _ _ h)

/-- From related sites, both actions fail alike or have related values, and leave related sites
behind. -/
def Parallels (R : Site ρ → Site σ → Prop) (act : Action ρ α) (act' : Action σ β)
    (V : α → β → Prop) : Prop :=
  ∀ site site', R site site' → Likewise V (act.perform site).1 (act'.perform site').1 ∧
    R (act.perform site).2 (act'.perform site').2

namespace Parallels

variable {γ δ : Type} {V : α → β → Prop} {W : γ → δ → Prop}

theorem of_simulates {act : Action ρ α} {act' : Action σ α} (h : act.Simulates R act') :
    act.Parallels R act' Eq := by
  intro site site' hsites
  obtain ⟨hresult, hafter⟩ := h site site' hsites
  refine ⟨?_, hafter⟩
  rw [← hresult]
  cases (act.perform site).1 with
  | error e => exact .error e
  | ok a => exact .ok rfl

theorem pure {a : α} {b : β} (h : V a b) : (pure a : Action ρ α).Parallels R (pure b) V :=
  fun _ _ hsites => ⟨.ok h, hsites⟩

theorem throw (e : Failure) : (throw e : Action ρ α).Parallels R (throw e : Action σ β) V :=
  fun _ _ hsites => ⟨.error e, hsites⟩

theorem mono {V' : α → β → Prop} {act : Action ρ α} {act' : Action σ β} (h : act.Parallels R act' V)
    (hV : ∀ a b, V a b → V' a b) : act.Parallels R act' V' := by
  intro site site' hsites
  obtain ⟨hresult, hafter⟩ := h site site' hsites
  exact ⟨hresult.mono hV, hafter⟩

theorem bind {act : Action ρ α} {act' : Action σ β} {next : α → Action ρ γ} {next' : β → Action σ δ}
    (hact : act.Parallels R act' V) (hnext : ∀ a b, V a b → (next a).Parallels R (next' b) W) :
    (act >>= next).Parallels R (act' >>= next') W := by
  intro site site' hsites
  obtain ⟨hresult, hbetween⟩ := hact site site' hsites
  rw [perform_bind, perform_bind]
  rcases hp : act.perform site with ⟨result, between⟩
  rcases hp' : act'.perform site' with ⟨result', between'⟩
  rw [hp, hp'] at hresult hbetween
  cases hresult with
  | error e => exact ⟨.error e, hbetween⟩
  | ok h => exact hnext _ _ h between between' hbetween

/-- Where the same values came of both, one continuation follows. -/
theorem bind_simulates {act : Action ρ α} {act' : Action σ α} {next : α → Action ρ γ}
    {next' : α → Action σ δ} (hact : act.Simulates R act')
    (hnext : ∀ a, (next a).Parallels R (next' a) W) :
    (act >>= next).Parallels R (act' >>= next') W :=
  (of_simulates hact).bind fun a _ h => h ▸ hnext a

/-- Two lists are gone through in step. -/
theorem mapM {f : α → Action ρ γ} {f' : β → Action σ δ} {l : List α} {l' : List β}
    (h : List.Forall₂ (fun a b => (f a).Parallels R (f' b) W) l l') :
    (l.mapM f).Parallels R (l'.mapM f') (List.Forall₂ W) := by
  induction h with
  | nil => exact pure .nil
  | cons hfirst _ ih =>
    rw [List.mapM_cons, List.mapM_cons]
    exact hfirst.bind fun c d hcd => ih.bind fun cs ds hrest => pure (.cons hcd hrest)

theorem paired {S : τ → υ → Prop} {act : Action ρ α} {act' : Action σ β}
    (h : act.Parallels R act' V) :
    (Action.onFirst act : Action (ρ × τ) α).Parallels (Site.Paired R S) (Action.onFirst act') V := by
  intro site site' hsites
  obtain ⟨hresult, hafter⟩ := h _ _ hsites.1
  exact ⟨hresult, hafter, hsites.2⟩

end Parallels

/-! ## Obliviousness -/

/-- What the action does depends on the resource and the files only; to the notes it adds. -/
def Oblivious (act : Action ρ α) : Prop :=
  ∀ resource files, ∃ result resource' files' said, ∀ notes,
    act.perform { resource, files, notes } =
      (result, { resource := resource', files := files', notes := notes ++ said })

namespace Oblivious

theorem pure (a : α) : (pure a : Action ρ α).Oblivious :=
  fun r d => ⟨.ok a, r, d, [], fun notes => by rw [perform_pure, List.append_nil]⟩

theorem throw (e : Failure) : (throw e : Action ρ α).Oblivious :=
  fun r d => ⟨.error e, r, d, [], fun notes => by rw [perform_throw, List.append_nil]⟩

theorem say (note : Note) : (say note : Action ρ Unit).Oblivious :=
  fun r d => ⟨.ok (), r, d, [note], fun _ => rfl⟩

theorem resource : (resource : Action ρ ρ).Oblivious :=
  fun r d => ⟨.ok r, r, d, [], fun notes => by rw [perform_resource, List.append_nil]⟩

theorem change (f : ρ → ρ) : (change f).Oblivious :=
  fun r d => ⟨.ok (), f r, d, [], fun notes => by rw [perform_change, List.append_nil]⟩

theorem files : (files : Action ρ Files).Oblivious :=
  fun r d => ⟨.ok d, r, d, [], fun notes => by rw [perform_files, List.append_nil]⟩

theorem setFiles (files : Files) : (setFiles files : Action ρ Unit).Oblivious :=
  fun r d => ⟨.ok (), r, files, [], fun notes => by rw [perform_setFiles, List.append_nil]⟩

theorem bind {act : Action ρ α} {next : α → Action ρ β} (hact : act.Oblivious)
    (hnext : ∀ a, (next a).Oblivious) : (act >>= next).Oblivious := by
  intro r d
  obtain ⟨⟨e⟩ | ⟨a⟩, r', d', said, hperform⟩ := hact r d
  · exact ⟨.error e, r', d', said, fun notes => by rw [perform_bind, hperform]⟩
  · obtain ⟨result, r'', d'', more, hrest⟩ := hnext a r' d'
    refine ⟨result, r'', d'', said ++ more, fun notes => ?_⟩
    rw [perform_bind, hperform, ← List.append_assoc]
    exact hrest (notes ++ said)

theorem forM {f : α → Action ρ PUnit} (hf : ∀ a, (f a).Oblivious) :
    ∀ l : List α, (l.forM f).Oblivious := by
  intro l
  rw [List.forM_eq_forM]
  induction l with
  | nil => exact pure _
  | cons a l ih =>
    rw [List.forM_cons]
    exact (hf a).bind fun _ => ih

end Oblivious

end Action

end CommitReports
