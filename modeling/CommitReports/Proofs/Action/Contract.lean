import CommitReports.Proofs.Action.Invariant

/-!
# Contracts of actions

An action meets a contract if, wherever a property of its resource and of the files
holds, it keeps the property, what it yields is as one condition says, and a failure
is as another one says (`Action.Meets`). If no failure is as it says, the action does
not fail.

A contract of several actions together follows from those of each; the second of two
has to meet its own only for values that the first one may yield.

Where it counts how far an action came before it failed, one property is not enough: an
action *ends* in one of two properties (`Action.Ends`), one for its result and what it
has done, the other for what it has done when it fails.
-/

namespace CommitReports.Action

variable {ρ τ α β : Type} {I : ρ → Files → Prop} {P : α → Prop} {E : Failure → Prop}

/-- Wherever the property holds, the action keeps it, and its outcome is as the conditions say. -/
def Meets (I : ρ → Files → Prop) (act : Action ρ α) (P : α → Prop) (E : Failure → Prop) : Prop :=
  ∀ site, I site.resource site.files →
    I (act.perform site).2.resource (act.perform site).2.files ∧
      match (act.perform site).1 with
      | .ok a => P a
      | .error e => E e

theorem Meets.pure {a : α} (h : P a) : (pure a : Action ρ α).Meets I P E := fun _ hsite => ⟨hsite, h⟩

theorem Meets.throw {e : Failure} (h : E e) : (throw e : Action ρ α).Meets I P E :=
  fun _ hsite => ⟨hsite, h⟩

theorem Meets.say (note : Note) : (say note : Action ρ Unit).Meets I (fun _ => True) E :=
  fun _ hsite => ⟨hsite, trivial⟩

/-- A settled value meets every contract that allows it. -/
theorem Settled.meets {act : Action ρ α} {a : α} (h : act.Settled I (.ok a)) (ha : P a) :
    act.Meets I P E := by
  intro site hsite
  obtain ⟨hresult, hkept⟩ := h site hsite
  rw [hresult]
  exact ⟨hkept, ha⟩

theorem Meets.bind {act : Action ρ α} {next : α → Action ρ β} {Q : β → Prop}
    (hact : act.Meets I P E) (hnext : ∀ a, P a → (next a).Meets I Q E) :
    (act >>= next).Meets I Q E := by
  intro site hsite
  obtain ⟨hbetween, hresult⟩ := hact site hsite
  rw [perform_bind]
  rcases hp : act.perform site with ⟨⟨e⟩ | ⟨a⟩, between⟩ <;> rw [hp] at hbetween hresult
  · exact ⟨hbetween, hresult⟩
  · exact hnext a hresult between hbetween

/-- Once the first of two actions has settled on a value, the contract of the second one counts. -/
theorem Settled.bind_meets {act : Action ρ α} {next : α → Action ρ β} {a : α} {Q : β → Prop}
    (hact : act.Settled I (.ok a)) (hnext : (next a).Meets I Q E) : (act >>= next).Meets I Q E :=
  (hact.meets (P := (· = a)) rfl).bind fun _ hb => hb ▸ hnext

/-- A step that is made under a condition. -/
theorem Meets.when {c : Prop} [Decidable c] {act : Action ρ Unit} {next : Unit → Action ρ β}
    {Q : β → Prop} (hact : c → act.Meets I (fun _ => True) E) (hnext : (next ()).Meets I Q E) :
    (if c then act >>= next else next ()).Meets I Q E := by
  split
  next h => exact (hact h).bind fun _ _ => hnext
  next => exact hnext

/-- An action that does not fail leaves nothing to be caught. -/
theorem Meets.tryCatch {act : Action ρ α} {handler : Failure → Action ρ α}
    (h : act.Meets I P fun _ => False) : (tryCatch act handler).Meets I P E := by
  intro site hsite
  obtain ⟨hkept, hresult⟩ := h site hsite
  rw [perform_tryCatch]
  rcases hp : act.perform site with ⟨⟨e⟩ | ⟨a⟩, after⟩ <;> rw [hp] at hkept hresult
  · exact hresult.elim
  · exact ⟨hkept, hresult⟩

theorem Meets.mapM {f : α → Action ρ β} {Q : β → Prop} :
    ∀ {l : List α}, (∀ a ∈ l, (f a).Meets I Q E) → (l.mapM f).Meets I (∀ b ∈ ·, Q b) E := by
  intro l
  induction l with
  | nil => exact fun _ => Meets.pure nofun
  | cons a l ih =>
    intro hf
    obtain ⟨ha, hrest⟩ := List.forall_mem_cons.mp hf
    rw [List.mapM_cons]
    exact ha.bind fun b hb => (ih hrest).bind fun bs hbs =>
      Meets.pure (List.forall_mem_cons.mpr ⟨hb, hbs⟩)

theorem Meets.forM {f : α → Action ρ PUnit} :
    ∀ {l : List α}, (∀ a ∈ l, (f a).Meets I (fun _ => True) E) →
      (l.forM f).Meets I (fun _ => True) E := by
  intro l
  rw [List.forM_eq_forM]
  induction l with
  | nil => exact fun _ => Meets.pure trivial
  | cons a l ih =>
    intro hf
    obtain ⟨ha, hrest⟩ := List.forall_mem_cons.mp hf
    rw [List.forM_cons]
    exact ha.bind fun _ _ => ih hrest

/-- A contract on a resource is one on the first of two. -/
theorem Meets.onFirst {act : Action ρ α} (h : act.Meets I P E) :
    (onFirst act : Action (ρ × τ) α).Meets (fun r d => I r.1 d) P E :=
  fun site hsite => h { site with resource := site.resource.1 } hsite

/-- An action on the second of two resources meets its contract whatever holds of the first one. -/
theorem Meets.onSecond {K : τ → Files → Prop} {act : Action ρ α}
    (hfiles : ∀ t d d', K t d → K t d') (h : act.Meets (fun _ _ => True) P E) :
    (onSecond act : Action (τ × ρ) α).Meets (fun r d => K r.1 d) P E :=
  fun site hsite => ⟨hfiles _ _ _ hsite, (h { site with resource := site.resource.2 } trivial).2⟩

/-! ## Where actions end -/

/-- From where the first property holds, the action ends where the second one holds of its result, or
fails where the third one does. -/
def Ends (I : ρ → Files → Prop) (act : Action ρ α) (J : α → ρ → Files → Prop)
    (F : ρ → Files → Prop) : Prop :=
  ∀ site, I site.resource site.files →
    match act.perform site with
    | (.ok a, after) => J a after.resource after.files
    | (.error _, after) => F after.resource after.files

variable {J : α → ρ → Files → Prop} {F : ρ → Files → Prop}

theorem Ends.pure {a : α} (h : ∀ r d, I r d → J a r d) : (pure a : Action ρ α).Ends I J F :=
  fun _ hsite => h _ _ hsite

theorem Ends.bind {act : Action ρ α} {next : α → Action ρ β} {K : β → ρ → Files → Prop}
    (hact : act.Ends I J F) (hnext : ∀ a, (next a).Ends (J a) K F) : (act >>= next).Ends I K F := by
  intro site hsite
  have hbetween := hact site hsite
  rw [perform_bind]
  rcases hp : act.perform site with ⟨⟨e⟩ | ⟨a⟩, between⟩ <;> rw [hp] at hbetween
  · exact hbetween
  · exact hnext a between hbetween

theorem Ends.say (note : Note) : (say note : Action ρ Unit).Ends I (fun _ => I) F :=
  fun _ hsite => hsite

/-- More may be known beforehand, and less be said of both ends. -/
theorem Ends.imp {act : Action ρ α} {I' : ρ → Files → Prop} {J' : α → ρ → Files → Prop}
    {F' : ρ → Files → Prop} (h : act.Ends I J F) (hI : ∀ r d, I' r d → I r d)
    (hJ : ∀ a r d, J a r d → J' a r d) (hF : ∀ r d, F r d → F' r d) : act.Ends I' J' F' := by
  intro site hsite
  have hend := h site (hI _ _ hsite)
  rcases hp : act.perform site with ⟨⟨e⟩ | ⟨a⟩, after⟩ <;> rw [hp] at hend
  · exact hF _ _ hend
  · exact hJ _ _ _ hend

/-- Less may be said of a failure. -/
theorem Ends.imp_failure {act : Action ρ α} {F' : ρ → Files → Prop} (h : act.Ends I J F)
    (hF : ∀ r d, F r d → F' r d) : act.Ends I J F' :=
  h.imp (fun _ _ hI => hI) (fun _ _ _ hJ => hJ) hF

/-- What is known beforehand may hold a fact that has nothing to do with the site. -/
theorem Ends.of_fact {P : Prop} {act : Action ρ α} (h : P → act.Ends I J F) :
    act.Ends (fun r d => P ∧ I r d) J F :=
  fun site hsite => h hsite.1 site hsite.2

/-- An action on the first of two resources ends in what it yields, and leaves the second one as it
was even if it fails. -/
theorem Yields.ends_onFirst {L : τ → Prop} {act : Action ρ α} (h : act.Yields I J) :
    (Action.onFirst act : Action (ρ × τ) α).Ends (fun r d => I r.1 d ∧ L r.2)
      (fun a r d => J a r.1 d ∧ L r.2) fun r _ => L r.2 := by
  rintro site ⟨hsite, hother⟩
  rw [perform_onFirst]
  have hyields := h { site with resource := site.resource.1 }
  rcases hp : act.perform { site with resource := site.resource.1 } with ⟨⟨e⟩ | ⟨a⟩, after⟩
  · exact hother
  · exact ⟨hyields a after hsite hp, hother⟩

/-- A loop whose passes are counted ends after as many as there are items, or fails in one of them. -/
theorem Ends.forM {f : α → Action ρ PUnit} {I F : Nat → ρ → Files → Prop}
    (hf : ∀ a n, (f a).Ends (I n) (fun _ => I (n + 1)) (F n)) :
    ∀ (l : List α) (n : Nat), (l.forM f).Ends (I n) (fun _ => I (n + l.length))
      fun r d => ∃ k < l.length, F (n + k) r d := by
  intro l
  rw [List.forM_eq_forM]
  induction l with
  | nil => exact fun n => .pure fun _ _ h => h
  | cons a l ih =>
    intro n
    rw [List.forM_cons]
    refine Ends.bind (J := fun _ => I (n + 1)) ?_ fun _ => ?_
    · exact (hf a n).imp (fun _ _ h => h) (fun _ _ _ h => h) fun _ _ h => ⟨0, by simp, h⟩
    · refine (ih (n + 1)).imp (fun _ _ h => h) (fun _ r d h => ?_) fun r d h => ?_
      · have hlength : n + 1 + l.length = n + (a :: l).length := by
          rw [List.length_cons]
          omega
        rwa [hlength] at h
      · obtain ⟨k, hk, h⟩ := h
        refine ⟨k + 1, by rw [List.length_cons]; omega, ?_⟩
        rwa [show n + (k + 1) = n + 1 + k by omega]

end CommitReports.Action
