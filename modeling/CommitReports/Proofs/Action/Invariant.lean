import CommitReports.Action
import Mathlib.Data.List.Forall2

/-!
# What actions keep, settle and yield

Three notions of what an action does, each relative to a property `I` of its
resource and of the files:

- it *keeps* `I` if `I` holds afterwards wherever it holds before, whatever the
  outcome is (`Action.Keeps`);
- its outcome is *settled* under `I` if it keeps `I` and, wherever `I` holds, the
  outcome is one and the same (`Action.Settled`);
- it *yields* `J` from `I` if `J` holds of its result, of the resource and of the
  files wherever `I` holds before and the action succeeds (`Action.Yields`).

All three pass through every way of putting actions together, so what is known
of single questions is known of all that is made of them.
-/

namespace CommitReports.Action

variable {ρ τ α β : Type} {I : ρ → Files → Prop}

/-! ## What actions keep -/

/-- The action leaves a property of the resource and the files as it is. -/
def Keeps (I : ρ → Files → Prop) (act : Action ρ α) : Prop :=
  ∀ site, I site.resource site.files →
    I (act.perform site).2.resource (act.perform site).2.files

theorem Keeps.pure (a : α) : (pure a : Action ρ α).Keeps I := fun _ h => h

theorem Keeps.throw (e : Failure) : (throw e : Action ρ α).Keeps I := fun _ h => h

theorem Keeps.say (note : Note) : (say note : Action ρ Unit).Keeps I := fun _ h => h

theorem Keeps.files : (files : Action ρ Files).Keeps I := fun _ h => h

theorem Keeps.bind {act : Action ρ α} {next : α → Action ρ β}
    (hact : act.Keeps I) (hnext : ∀ a, (next a).Keeps I) : (act >>= next).Keeps I := by
  intro site h
  have hbetween := hact site h
  rw [perform_bind]
  rcases hp : act.perform site with ⟨⟨e⟩ | ⟨a⟩, between⟩ <;> rw [hp] at hbetween
  · exact hbetween
  · exact hnext a between hbetween

theorem Keeps.tryCatch {act : Action ρ α} {handler : Failure → Action ρ α}
    (hact : act.Keeps I) (hhandler : ∀ e, (handler e).Keeps I) :
    (tryCatch act handler).Keeps I := by
  intro site h
  have hbetween := hact site h
  rw [perform_tryCatch]
  rcases hp : act.perform site with ⟨⟨e⟩ | ⟨a⟩, between⟩ <;> rw [hp] at hbetween
  · exact hhandler e between hbetween
  · exact hbetween

theorem Keeps.forM {f : α → Action ρ PUnit} (hf : ∀ a, (f a).Keeps I) :
    ∀ l : List α, (l.forM f).Keeps I := by
  intro l
  rw [List.forM_eq_forM]
  induction l with
  | nil => exact Keeps.pure _
  | cons a l ih =>
    rw [List.forM_cons]
    exact (hf a).bind fun _ => ih

theorem Keeps.mapM {f : α → Action ρ β} (hf : ∀ a, (f a).Keeps I) :
    ∀ l : List α, (l.mapM f).Keeps I := by
  intro l
  induction l with
  | nil => exact Keeps.pure _
  | cons a l ih =>
    rw [List.mapM_cons]
    exact (hf a).bind fun b => ih.bind fun bs => Keeps.pure _

/-- What an action on a resource keeps, it keeps as an action on the first of two. -/
theorem Keeps.onFirst {J : ρ × τ → Files → Prop} {act : Action ρ α}
    (h : ∀ t, act.Keeps fun r d => J (r, t) d) : (onFirst act : Action (ρ × τ) α).Keeps J := by
  intro site hsite
  rw [perform_onFirst]
  exact h site.resource.2 { site with resource := site.resource.1 } hsite

/-- What an action on a resource keeps, it keeps as an action on the second of two. -/
theorem Keeps.onSecond {J : ρ × τ → Files → Prop} {act : Action τ α}
    (h : ∀ r, act.Keeps fun t d => J (r, t) d) : (onSecond act : Action (ρ × τ) α).Keeps J := by
  intro site hsite
  rw [perform_onSecond]
  exact h site.resource.1 { site with resource := site.resource.2 } hsite

/-! ## Settled outcomes -/

/-- Wherever the property holds, the action has the given outcome, and keeps the property. -/
def Settled (I : ρ → Files → Prop) (act : Action ρ α) (result : Except Failure α) : Prop :=
  ∀ site, I site.resource site.files →
    (act.perform site).1 = result ∧ I (act.perform site).2.resource (act.perform site).2.files

theorem Settled.keeps {act : Action ρ α} {result : Except Failure α} (h : act.Settled I result) :
    act.Keeps I := fun site hsite => (h site hsite).2

theorem Settled.pure (a : α) : (pure a : Action ρ α).Settled I (.ok a) := fun _ h => ⟨rfl, h⟩

theorem Settled.throw (e : Failure) : (throw e : Action ρ α).Settled I (.error e) :=
  fun _ h => ⟨rfl, h⟩

theorem Settled.say (note : Note) : (say note : Action ρ Unit).Settled I (.ok ()) :=
  fun _ h => ⟨rfl, h⟩

theorem Settled.bind {act : Action ρ α} {next : α → Action ρ β} {result : Except Failure α}
    {rest : α → Except Failure β} (hact : act.Settled I result)
    (hnext : ∀ a, (next a).Settled I (rest a)) : (act >>= next).Settled I (result >>= rest) := by
  intro site h
  obtain ⟨hresult, hbetween⟩ := hact site h
  rw [perform_bind]
  -- A settled failure ends both; a settled value is what both go on with.
  rcases hp : act.perform site with ⟨⟨e⟩ | ⟨a⟩, between⟩
  · rw [hp] at hresult hbetween
    subst hresult
    exact ⟨rfl, hbetween⟩
  · rw [hp] at hresult hbetween
    subst hresult
    exact hnext a between hbetween

/-- An action that has settled on a value does not come to its handler. -/
theorem Settled.tryCatch_ok {act : Action ρ α} {handler : Failure → Action ρ α} {a : α}
    (hact : act.Settled I (.ok a)) : (tryCatch act handler).Settled I (.ok a) := by
  intro site h
  obtain ⟨hresult, hbetween⟩ := hact site h
  rw [perform_tryCatch, show act.perform site = (.ok a, (act.perform site).2) from Prod.ext hresult rfl]
  exact ⟨rfl, hbetween⟩

/-- A failure that is caught: what follows it counts. -/
theorem Settled.tryCatch {act : Action ρ α} {handler : Failure → Action ρ α}
    {result : Except Failure α} {rescue : Failure → Except Failure α} (hact : act.Settled I result)
    (hhandler : ∀ e, (handler e).Settled I (rescue e)) :
    (tryCatch act handler).Settled I (tryCatch result rescue) := by
  intro site h
  obtain ⟨hresult, hbetween⟩ := hact site h
  rw [perform_tryCatch]
  rcases hp : act.perform site with ⟨⟨e⟩ | ⟨a⟩, between⟩
  · rw [hp] at hresult hbetween
    subst hresult
    exact hhandler e between hbetween
  · rw [hp] at hresult hbetween
    subst hresult
    exact ⟨rfl, hbetween⟩

/-- Once the first of two actions has settled on a value, the second one counts. -/
theorem Settled.bind_ok {act : Action ρ α} {next : α → Action ρ β} {a : α}
    {result : Except Failure β} (hact : act.Settled I (.ok a)) (hnext : (next a).Settled I result) :
    (act >>= next).Settled I result := by
  intro site h
  obtain ⟨hresult, hbetween⟩ := hact site h
  rw [perform_bind, show act.perform site = (.ok a, (act.perform site).2) from Prod.ext hresult rfl]
  exact hnext _ hbetween

theorem Settled.mapM {f : α → Action ρ β} {g : α → Except Failure β}
    (hf : ∀ a, (f a).Settled I (g a)) : ∀ l : List α, (l.mapM f).Settled I (l.mapM g) := by
  intro l
  induction l with
  | nil => exact Settled.pure _
  | cons a l ih =>
    rw [List.mapM_cons, List.mapM_cons]
    exact (hf a).bind fun b => ih.bind fun bs => Settled.pure _

/-- Actions that settle on values each do so one after the other. -/
theorem Settled.mapM_ok {f : α → Action ρ β} {l : List α} {bs : List β}
    (h : List.Forall₂ (fun a b => (f a).Settled I (.ok b)) l bs) :
    (l.mapM f).Settled I (.ok bs) := by
  induction h with
  | nil => exact Settled.pure _
  | cons ha _ ih =>
    rw [List.mapM_cons]
    exact ha.bind_ok (ih.bind_ok (Settled.pure _))

theorem Settled.forM_ok {f : α → Action ρ PUnit} :
    ∀ {l : List α}, (∀ a ∈ l, (f a).Settled I (.ok ⟨⟩)) → (l.forM f).Settled I (.ok ⟨⟩) := by
  intro l
  rw [List.forM_eq_forM]
  induction l with
  | nil => exact fun _ => Settled.pure _
  | cons a l ih =>
    intro hf
    obtain ⟨ha, hrest⟩ := List.forall_mem_cons.mp hf
    rw [List.forM_cons]
    exact ha.bind_ok (ih hrest)

/-- What is settled on a resource is settled on the first of two, whatever the second one is. -/
theorem Settled.onFirst {L : τ → Prop} {act : Action ρ α} {result : Except Failure α}
    (h : act.Settled I result) :
    (onFirst act : Action (ρ × τ) α).Settled (fun r d => I r.1 d ∧ L r.2) result := by
  rintro site ⟨hsite, hother⟩
  obtain ⟨hresult, hkept⟩ := h { site with resource := site.resource.1 } hsite
  exact ⟨hresult, hkept, hother⟩

/-- What is settled on each disk, and leaves it alone, is settled wherever the disk may change. -/
theorem Settled.of_disks {I : ρ → Prop} {act : Action ρ α} {result : Except Failure α}
    (h : ∀ files, act.Settled (fun r d => I r ∧ d = files) result) :
    act.Settled (fun r _ => I r) result := by
  intro site hsite
  obtain ⟨hresult, hkept, -⟩ := h site.files site ⟨hsite, rfl⟩
  exact ⟨hresult, hkept⟩

/-! ## What successful actions yield -/

/-- Wherever the first property holds and the action succeeds, the second one holds of its result
and afterwards. -/
def Yields (I : ρ → Files → Prop) (act : Action ρ α) (J : α → ρ → Files → Prop) : Prop :=
  ∀ site a after, I site.resource site.files → act.perform site = (.ok a, after) →
    J a after.resource after.files

variable {J : α → ρ → Files → Prop} {K : β → ρ → Files → Prop}

/-- A settled outcome is the one that is yielded. -/
theorem Settled.yields {act : Action ρ α} {result : Except Failure α} (h : act.Settled I result) :
    act.Yields I fun a r d => result = .ok a ∧ I r d := by
  intro site a after hsite hp
  have hsettled := h site hsite
  rw [hp] at hsettled
  exact ⟨hsettled.1.symm, hsettled.2⟩

/-- What is kept is yielded. -/
theorem Keeps.yields {act : Action ρ α} (h : act.Keeps I) : act.Yields I fun _ => I := by
  intro site a after hsite hp
  have hkept := h site hsite
  rwa [hp] at hkept

theorem Yields.pure {a : α} (h : ∀ r d, I r d → J a r d) : (pure a : Action ρ α).Yields I J := by
  intro site b after hsite hp
  cases hp
  exact h _ _ hsite

theorem Yields.throw (e : Failure) : (throw e : Action ρ α).Yields I J := by
  intro site a after _ hp
  cases hp

theorem Yields.bind {act : Action ρ α} {next : α → Action ρ β} (hact : act.Yields I J)
    (hnext : ∀ a, (next a).Yields (J a) K) : (act >>= next).Yields I K := by
  intro site b after hsite hp
  obtain ⟨a, between, hfirst, hsecond⟩ := perform_bind_eq_ok.mp hp
  exact hnext a between b after (hact site a between hsite hfirst) hsecond

/-- Less may be said of what is yielded. -/
theorem Yields.mono {act : Action ρ α} {J' : α → ρ → Files → Prop} (h : act.Yields I J)
    (hle : ∀ a r d, J a r d → J' a r d) : act.Yields I J' :=
  fun site a after hsite hp => hle _ _ _ (h site a after hsite hp)

/-- What is assumed may hold a fact that has nothing to do with the site. -/
theorem Yields.of_fact {P : Prop} {act : Action ρ α} (h : P → act.Yields I J) :
    act.Yields (fun r d => P ∧ I r d) J :=
  fun site a after hsite hp => h hsite.1 site a after hsite.2 hp

/-- What is yielded on a resource is yielded on the first of two, whatever the second one is. -/
theorem Yields.onFirst {L : τ → Prop} {act : Action ρ α} (h : act.Yields I J) :
    (onFirst act : Action (ρ × τ) α).Yields (fun r d => I r.1 d ∧ L r.2)
      fun a r d => J a r.1 d ∧ L r.2 := by
  intro site a after hsite hp
  obtain ⟨hresult, rfl⟩ := Prod.mk.inj hp
  exact ⟨h { site with resource := site.resource.1 } a _ hsite.1 (Prod.ext hresult rfl), hsite.2⟩

end CommitReports.Action
