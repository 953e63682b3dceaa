import CommitReports.Proofs.Commit.Calls

/-!
# What handles keep

Each of the calls on a handle and on copies of it follows one law (`Lawful`). What a handle asks
follows from what it was told, by the invariant on handles. More is only ever added to what a
handle was told, and its copies start from there (`prefix_of_origin`), so an answer that a handle
has once stays with it and with the copies that are taken from then on. A failure adds no answer
(`map_hear_of_failed`), and what one handle hears the others do not (`getElem?_hear_of_ne`).
-/

namespace CommitReports.Commit.Handle

variable {ρ : Type} [History ρ] {α : Type} {commit : Commit} {mine : List Exchange}

/-! ## Copies -/

/-- Where each handle comes from after some events: one of those that there were before. -/
def origins (count : Nat) (events : List Event) : List Nat :=
  events.foldl (fun origins event => event.call.inherit origins) (List.range count)

theorem forall₂_getElem? {β : Type} {R : α → β → Prop} {states : List α} {others : List β}
    (h : List.Forall₂ R states others) (i : Nat) :
    states[i]? = none ∧ others[i]? = none ∨
      ∃ a b, states[i]? = some a ∧ others[i]? = some b ∧ R a b := by
  induction h generalizing i with
  | nil => exact .inl ⟨rfl, rfl⟩
  | cons hab _ ih =>
    cases i with
    | zero => exact .inr ⟨_, _, rfl, rfl, hab⟩
    | succ i => exact ih i

theorem forall₂_inherit {β : Type} {R : α → β → Prop} {states : List α} {others : List β}
    (h : List.Forall₂ R states others) (call : Call) :
    List.Forall₂ R (call.inherit states) (call.inherit others) := by
  cases call with
  | copy i =>
    refine List.rel_append h ?_
    rcases forall₂_getElem? h i with ⟨hnone, hnone'⟩ | ⟨a, b, ha, hb, hab⟩
    · rw [hnone, hnone']
      exact .nil
    · rw [ha, hb]
      exact .cons hab .nil
  | _ => exact h

theorem forall₂_modify {β : Type} {R : α → β → Prop} {f : β → β} (hf : ∀ a b, R a b → R a (f b))
    {states : List α} {others : List β} (h : List.Forall₂ R states others) (i : Nat) :
    List.Forall₂ R states (others.modify i f) := by
  induction h generalizing i with
  | nil =>
    rw [List.modify_nil]
    exact .nil
  | cons hab hrest ih =>
    cases i with
    | zero => exact .cons (hf _ _ hab) hrest
    | succ i => exact .cons hab (ih i)

/-- What holds of what a handle was told, and is not lost by hearing more, goes on to hold, of all
that come from it. -/
theorem forall₂_tell {R : α → List Exchange → Prop}
    (hmore : ∀ state theirs heard, R state theirs → R state (theirs ++ heard)) {states : List α}
    {told : List (List Exchange)} (h : List.Forall₂ R states told) (events : List Event) :
    List.Forall₂ R (events.foldl (fun states event => event.call.inherit states) states)
      (events.foldl Event.tell told) := by
  induction events generalizing states told with
  | nil => exact h
  | cons event events ih =>
    exact ih (forall₂_inherit (forall₂_modify (fun _ _ => hmore _ _ _) h _) event.call)

/-- What a handle was told at some point, those that come from it were told first. -/
theorem prefix_of_origin {before middle : List Event} {i j : Nat} {mine : List Exchange}
    (hmine : (told before)[i]? = some mine)
    (horigin : (origins (told before).length middle)[j]? = some i) :
    ∃ theirs, (told (before ++ middle))[j]? = some theirs ∧ mine <+: theirs := by
  let R : Nat → List Exchange → Prop := fun i theirs =>
    ∀ mine, (told before)[i]? = some mine → mine <+: theirs
  have hstart : List.Forall₂ R (List.range (told before).length) (told before) := by
    refine List.forall₂_iff_get.mpr ⟨List.length_range, fun i _ hlt mine hmine => ?_⟩
    simp_all
  have hend := forall₂_tell (fun _ _ _ hbegins mine h =>
    (hbegins mine h).trans (List.prefix_append _ _)) hstart middle
  rcases forall₂_getElem? hend j with ⟨hnone, -⟩ | ⟨i', theirs, hi', htheirs, hbegins⟩
  · exact absurd (horigin.symm.trans hnone) (by simp)
  · obtain rfl : i = i' := Option.some.inj (horigin.symm.trans hi')
    refine ⟨theirs, ?_, hbegins mine hmine⟩
    rw [told, List.foldl_append]
    exact htheirs

/-! ## The law -/

theorem Answered.of_summary {i : Nat} {text : String} {heard : List Exchange} {outcome : Outcome}
    (h : Answered commit mine (.whatChanged i) heard outcome)
    (hknown : firstSummary mine = some text) : heard = [] ∧ outcome = .text (.ok text) := by
  cases h with
  | keptSummary known =>
    cases hknown.symm.trans known
    exact ⟨rfl, rfl⟩
  | askedSummary unknown => cases hknown.symm.trans unknown

theorem Answered.of_parent {i : Nat} {parent : Option String} {heard : List Exchange}
    {outcome : Outcome} (h : Answered commit mine (.parent i) heard outcome)
    (hknown : firstParent mine = some parent) :
    heard = [] ∧ outcome = .commit (commit.parentOf parent) := by
  cases h with
  | keptParent known =>
    cases hknown.symm.trans known
    exact ⟨rfl, rfl⟩
  | askedParent unknown => cases hknown.symm.trans unknown

theorem Answered.of_base {i : Nat} {parent : Option String} {heard : List Exchange}
    {outcome : Outcome} (h : Answered commit mine (.diff i) heard outcome)
    (hknown : firstParent mine = some parent) :
    ∃ patch, heard = [.diff parent commit.hash patch] ∧ outcome = .text patch := by
  cases h with
  | keptBase known =>
    cases hknown.symm.trans known
    exact ⟨_, rfl, rfl⟩
  | askedBase unknown => cases hknown.symm.trans unknown
  | noBase unknown => cases hknown.symm.trans unknown
  | failedBase unknown => cases hknown.symm.trans unknown

/-- The handles after some events. -/
def handlesAfter (commit : Commit) (events : List Event) : List Handle :=
  (events.getLast?.map (·.handles)).getD [{ commit }]

/-- Whether an answer is one that a handle keeps. -/
def teaches : Exchange → Bool
  | .parent _ (.ok _) => true
  | .whatChanged _ (.ok _) => true
  | _ => false

theorem learned_append_of_failed {heard : List Exchange}
    (h : ∀ exchange ∈ heard, teaches exchange = false) :
    learned commit (mine ++ heard) = learned commit mine := by
  have hsummary : firstSummary heard = none := by
    refine List.findSome?_eq_none_iff.mpr fun exchange hexchange => ?_
    have hfailed := h exchange hexchange
    unfold teaches at hfailed
    split <;> simp_all
  have hparent : firstParent heard = none := by
    refine List.findSome?_eq_none_iff.mpr fun exchange hexchange => ?_
    have hfailed := h exchange hexchange
    unfold teaches at hfailed
    split <;> simp_all
  simp only [learned, firstSummary_append, firstParent_append, hsummary, hparent, Option.or_none]

/-- What belongs to a handle is not touched by a copy. -/
theorem getElem?_inherit_of_some {states : List α} {j : Nat} {state : α}
    (h : states[j]? = some state) (call : Call) : (call.inherit states)[j]? = some state := by
  cases call with
  | copy i =>
    obtain ⟨hlt, -⟩ := List.getElem?_eq_some_iff.mp h
    rw [Call.inherit, List.getElem?_append_left hlt, h]
  | _ => exact h

/-- With no answer to keep, all handles are as they were. -/
theorem map_hear_of_failed {told : List (List Exchange)} {call : Call} {heard : List Exchange}
    (h : ∀ exchange ∈ heard, teaches exchange = false) :
    (hear told call heard).map (learned commit) = call.inherit (told.map (learned commit)) := by
  rw [hear, map_inherit]
  refine congrArg call.inherit (List.ext_getElem? fun j => ?_)
  rw [List.getElem?_map, List.getElem?_map, List.getElem?_modify]
  cases told[j]? with
  | none => rfl
  | some mine =>
    by_cases hj : call.target = j
    · simp [hj, learned_append_of_failed h]
    · simp [hj]

/-- Only the handle that is called hears. -/
theorem getElem?_hear_of_ne {told : List (List Exchange)} {call : Call} {heard : List Exchange}
    {j : Nat} (hj : j ≠ call.target) (h : told[j]? = some mine) :
    (hear told call heard)[j]? = some mine := by
  refine getElem?_inherit_of_some ?_ call
  simp [h, hj.symm]

/-- What holds of each event among calls on a handle on a commit and on copies of it. -/
structure Lawful (commit : Commit) (before : List Event) (event : Event) (after : List Event) :
    Prop where
  /-- What is said and what comes of it follow from what the handle was told. -/
  answered : ∀ mine, (told before)[event.call.target]? = some mine →
    Answered commit mine event.call event.heard event.outcome
  /-- A handle keeps the first answers that it was told, and nothing else. -/
  kept : event.handles = (told (before ++ [event])).map (learned commit)
  /-- Where there was no answer to keep, all handles are as they were. -/
  failed : (∀ exchange ∈ event.heard, teaches exchange = false) →
    event.handles = event.call.inherit (handlesAfter commit before)
  /-- Other handles, copies among them, do not see the answer. -/
  apart : ∀ j handle, j ≠ event.call.target → (handlesAfter commit before)[j]? = some handle →
    event.handles[j]? = some handle
  /-- What a handle knows now, it and all copies that come from it from now on answer, and do not
  ask. -/
  lasting : ∀ middle later rest, after = middle ++ later :: rest →
    ∀ i handle, event.handles[i]? = some handle →
      (origins event.handles.length middle)[later.call.target]? = some i →
      (∀ text, handle.summary = some text → ∀ j, later.call = .whatChanged j →
        later.heard = [] ∧ later.outcome = .text (.ok text)) ∧
      ∀ parent, handle.parent = some parent →
        (∀ j, later.call = .parent j →
          later.heard = [] ∧ later.outcome = .commit (commit.parentOf parent)) ∧
        ∀ j, later.call = .diff j →
          ∃ patch, later.heard = [.diff parent commit.hash patch] ∧ later.outcome = .text patch

theorem handlesAfter_eq {site : Site ρ} {calls : List Call} {before after : List Event}
    (h : record [{ commit }] site calls = before ++ after) :
    handlesAfter commit before = (told before).map (learned commit) := by
  rcases List.eq_nil_or_concat before with rfl | ⟨front, event, rfl⟩
  · rfl
  · rw [List.concat_eq_append] at h ⊢
    have hsplit : record ([[]].map (learned commit)) site calls = front ++ event :: after := by
      rw [List.append_assoc] at h
      exact h
    rw [handlesAfter, List.getLast?_concat, Option.map_some, Option.getD_some]
    exact (record_told hsplit).2

/-- **What was answered stays, and what failed is asked again**: calls from a handle on a commit of
which nothing is known, and from copies of it, follow the law, whatever the history answers; and they
come to the same if nobody listens. -/
theorem record_lawful (commit : Commit) (site : Site ρ) (calls : List Call) :
    (run [{ commit }] site calls).1 =
      ((record [{ commit }] site calls).map (·.outcome),
        handlesAfter commit (record [{ commit }] site calls)) ∧
    ∀ before event after, record [{ commit }] site calls = before ++ event :: after →
      Lawful commit before event after := by
  constructor
  · rw [handlesAfter_eq (List.append_nil _).symm]
    exact run_told commit [[]] site calls
  intro before event after h
  have hsplit : record ([[]].map (learned commit)) site calls = before ++ event :: after := h
  obtain ⟨hanswered, hkept⟩ := record_told hsplit
  have hbefore : handlesAfter commit before = (told before).map (learned commit) :=
    handlesAfter_eq h
  have hnow : event.handles = (hear (told before) event.call event.heard).map (learned commit) := by
    rw [hkept, List.foldl_concat]
    rfl
  refine ⟨hanswered, hkept, ?_, ?_, ?_⟩
  · intro hnothing
    rw [hnow, hbefore, map_hear_of_failed hnothing]
  · intro j handle hj hhandle
    rw [hbefore, List.getElem?_map] at hhandle
    obtain ⟨mine, hmine, rfl⟩ := Option.map_eq_some_iff.mp hhandle
    rw [hnow, List.getElem?_map, getElem?_hear_of_ne hj hmine]
    rfl
  · intro middle later rest hafter i handle hhandle horigin
    have hlater : record ([[]].map (learned commit)) site calls =
        (before ++ event :: middle) ++ later :: rest := by
      rw [hsplit, hafter]
      simp
    rw [hkept, List.getElem?_map] at hhandle
    obtain ⟨mine, hmine, rfl⟩ := Option.map_eq_some_iff.mp hhandle
    rw [hkept, List.length_map] at horigin
    -- What is told first is told first in all that begins with it.
    obtain ⟨theirs, htheirs, hbegins⟩ := prefix_of_origin hmine horigin
    rw [List.append_assoc, List.singleton_append] at htheirs
    have hanswered := (record_told hlater).1 theirs htheirs
    refine ⟨fun text htext j hcall => ?_, fun parent hparent => ⟨fun j hcall => ?_, fun j hcall => ?_⟩⟩
    · rw [hcall] at hanswered
      exact hanswered.of_summary (hbegins.findSome?_eq_some htext)
    · rw [hcall] at hanswered
      exact hanswered.of_parent (hbegins.findSome?_eq_some hparent)
    · rw [hcall] at hanswered
      exact hanswered.of_base (hbegins.findSome?_eq_some hparent)

/-! ## A history that changes its mind -/

/-- A history that has its answers ready, one for each question. -/
structure Scripted where
  answers : List (Except Failure (Option String))

/-- The next answer. -/
def Scripted.next : Action Scripted (Option String) := do
  match (← Action.resource).answers with
  | [] => throw (.unavailable "no more answers")
  | answer :: answers =>
    Action.change fun _ => { answers }
    Action.ofExcept answer

instance : History Scripted where
  resolve name := return name
  commitsBetween _ _ := return []
  parent _ := Scripted.next
  whatChanged _ := return (← Scripted.next).getD ""
  diff _ _ := return (← Scripted.next).getD ""
  hasLocalBranch _ := return true
  checkout _ := return ()
  refresh := return ()

/-- A copy that was taken after a failure asks for itself, one that was taken after the answer does
not. -/
theorem record_lawful_scripted :
    let commit : Commit := { hash := "c", branch := ⟨⟨"main"⟩⟩ }
    let failed : Except Failure String := .error (.unavailable "down")
    let site : Site Scripted :=
      { resource :=
          { answers := [.error (.unavailable "down"), .ok "one", .ok "two", .ok none, .ok "p"] }
        files := { entries := [], here := [] } }
    let calls : List Call :=
      [.whatChanged 0, .copy 0, .whatChanged 0, .copy 0, .whatChanged 1, .whatChanged 2, .parent 0,
        .diff 0]
    (record [{ commit }] site calls).map (fun event => (event.heard, event.outcome)) =
      [([.whatChanged "c" failed], .text failed), ([], .copied),
        ([.whatChanged "c" (.ok "one")], .text (.ok "one")), ([], .copied),
        ([.whatChanged "c" (.ok "two")], .text (.ok "two")), ([], .text (.ok "one")),
        ([.parent "c" (.ok none)], .commit (.error (.noParent "c"))),
        ([.diff none "c" (.ok "p")], .text (.ok "p"))] ∧
    ∀ before event after, record [{ commit }] site calls = before ++ event :: after →
      Lawful commit before event after := by
  intro commit failed site calls
  exact ⟨rfl, (record_lawful commit site calls).2⟩

end CommitReports.Commit.Handle
