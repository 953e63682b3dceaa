import CommitReports.Proofs.Action.Invariant
import CommitReports.Sink

/-!
# Sinks that refuse

A postbox is any sink: its verdict on a report, to take it or why not, may depend
in any way on the report and on all that it has taken before. Beside each postbox
stands the willing one, which takes everything.

An action *delivers* (`Action.Delivers`) if it only ever adds to what the sink has
taken and does not look into the sink otherwise. Made with a willing sink it then
does the same as with any other, up to the first refusal; so what a refused
action has delivered is a prefix of what the willing sink gets. Whatever is put
together from actions that deliver delivers (`Delivers.bind`).
-/

namespace CommitReports

/-- A sink that judges each report by what it is and by what was taken before. -/
structure Postbox where
  /-- Why a report is refused, if it is, after some reports were taken. -/
  verdict : (taken : List (String × String)) → (commit message : String) → Option Failure
  /-- The commits and messages that were taken, in order. -/
  taken : List (String × String) := []

namespace Postbox

/-- Takes a report or refuses it, as the verdict is. -/
def deliver (commit message : String) : Action Postbox Unit := do
  let box ← Action.resource
  match box.verdict box.taken commit message with
  | some e => throw e
  | none => Action.change fun box => { box with taken := box.taken ++ [(commit, message)] }

instance : Sink Postbox := ⟨deliver⟩

/-- The same postbox, but taking everything. -/
def willing (box : Postbox) : Postbox := { box with verdict := fun _ _ _ => none }

end Postbox

variable {ρ α β : Type}

/-- The same site with a sink that takes everything. -/
def Site.willing (site : Site (ρ × Postbox)) : Site (ρ × Postbox) :=
  { site with resource := (site.resource.1, site.resource.2.willing) }

/-- What the sink of a site has taken. -/
def Site.taken (site : Site (ρ × Postbox)) : List (String × String) := site.resource.2.taken

namespace Action

/-- The action only adds to what the sink has taken. With a willing sink it does the same, or it has
failed here and goes on there. -/
structure Delivers (act : Action (ρ × Postbox) α) : Prop where
  grows : ∀ site, site.taken <+: (act.perform site).2.taken
  tracks : ∀ site,
    act.perform site.willing = ((act.perform site).1, (act.perform site).2.willing) ∨
      (∃ e, (act.perform site).1 = .error e) ∧
        (act.perform site).2.taken <+: (act.perform site.willing).2.taken

namespace Delivers

theorem of_blind {act : Action (ρ × Postbox) α}
    (hsame : ∀ site, (act.perform site).2.taken = site.taken)
    (hblind : ∀ site, act.perform site.willing =
      ((act.perform site).1, (act.perform site).2.willing)) : act.Delivers where
  grows site := (hsame site).symm ▸ List.prefix_refl _
  tracks site := .inl (hblind site)

theorem pure (a : α) : (pure a : Action (ρ × Postbox) α).Delivers :=
  of_blind (fun _ => rfl) fun _ => rfl

theorem throw (e : Failure) : (throw e : Action (ρ × Postbox) α).Delivers :=
  of_blind (fun _ => rfl) fun _ => rfl

theorem say (note : Note) : (say note : Action (ρ × Postbox) Unit).Delivers :=
  of_blind (fun _ => rfl) fun _ => rfl

theorem files : (files : Action (ρ × Postbox) Files).Delivers :=
  of_blind (fun _ => rfl) fun _ => rfl

theorem setFiles (files : Files) : (setFiles files : Action (ρ × Postbox) Unit).Delivers :=
  of_blind (fun _ => rfl) fun _ => rfl

theorem onFirst (act : Action ρ α) : (onFirst act : Action (ρ × Postbox) α).Delivers :=
  of_blind (fun _ => rfl) fun _ => rfl

theorem deliver (commit message : String) :
    (onSecond (Sink.deliver commit message) : Action (ρ × Postbox) Unit).Delivers := by
  have hdeliver : ∀ site : Site (ρ × Postbox),
      (onSecond (Sink.deliver commit message) : Action (ρ × Postbox) Unit).perform site =
        match site.resource.2.verdict site.taken commit message with
        | some e => (.error e, site)
        | none => (.ok (), { site with resource := (site.resource.1,
            { site.resource.2 with taken := site.taken ++ [(commit, message)] }) }) := by
    intro site
    simp only [perform_onSecond, Sink.deliver, Postbox.deliver, perform_bind, perform_resource,
      Site.taken]
    split <;> rfl
  constructor
  · intro site
    rw [hdeliver]
    split
    next => exact List.prefix_refl _
    next => exact List.prefix_append _ _
  · intro site
    rw [hdeliver, hdeliver]
    rcases site.resource.2.verdict site.taken commit message with _ | e
    · exact .inl rfl
    · exact .inr ⟨⟨e, rfl⟩, List.prefix_append _ _⟩

/-- What the first of two actions has delivered, both have. -/
private theorem taken_bind (act : Action (ρ × Postbox) α) {next : α → Action (ρ × Postbox) β}
    (hnext : ∀ a, (next a).Delivers) (site : Site (ρ × Postbox)) :
    (act.perform site).2.taken <+: ((act >>= next).perform site).2.taken := by
  rw [perform_bind]
  rcases act.perform site with ⟨⟨e⟩ | ⟨a⟩, between⟩
  · exact List.prefix_refl _
  · exact (hnext a).grows between

theorem bind {act : Action (ρ × Postbox) α} {next : α → Action (ρ × Postbox) β}
    (hact : act.Delivers) (hnext : ∀ a, (next a).Delivers) : (act >>= next).Delivers where
  grows site := (hact.grows site).trans (taken_bind act hnext site)
  tracks site := by
    have htracks := hact.tracks site
    have hgoes := taken_bind act hnext site.willing
    rw [perform_bind] at hgoes ⊢
    rw [perform_bind]
    rcases hp : act.perform site with ⟨⟨e⟩ | ⟨a⟩, between⟩
    · rw [hp] at htracks
      rcases htracks with hsame | ⟨-, hprefix⟩
      · exact .inl (by rw [hsame])
      · -- The first action was refused: the willing sink gets what it got, and more.
        exact .inr ⟨⟨e, rfl⟩, hprefix.trans hgoes⟩
    · -- A first action that has succeeded was not refused, so both sinks have got the same.
      rw [hp] at htracks
      rcases htracks with hsame | ⟨⟨e, he⟩, -⟩
      · rw [hsame]
        exact (hnext a).tracks between
      · cases he

theorem forM {f : α → Action (ρ × Postbox) PUnit} (hf : ∀ a, (f a).Delivers) :
    ∀ l : List α, (l.forM f).Delivers := by
  intro l
  rw [List.forM_eq_forM]
  induction l with
  | nil => exact pure _
  | cons a l ih =>
    rw [List.forM_cons]
    exact (hf a).bind fun _ => ih

theorem mapM {f : α → Action (ρ × Postbox) β} (hf : ∀ a, (f a).Delivers) :
    ∀ l : List α, (l.mapM f).Delivers := by
  intro l
  induction l with
  | nil => exact pure _
  | cons a l ih =>
    rw [List.mapM_cons]
    exact (hf a).bind fun b => ih.bind fun bs => pure _

end Delivers

end Action

end CommitReports
