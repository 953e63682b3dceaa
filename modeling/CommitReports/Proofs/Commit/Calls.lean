import CommitReports.Proofs.Commit.Queries
import CommitReports.Proofs.History.Overheard

/-!
# Calls on handles

A handle on a commit asks a history that may answer differently each time, and may fail. Calls on
it and on copies of it are recorded, each with what was said meanwhile (`record`). What a handle
was told is read off the record (`told`): what was said on calls on it, and before that, if it is
a copy, what its original was told until then. The invariant is that a handle has kept the first
answers of those, and nothing else (`learned`). A call keeps this up, and what it asks and what
comes of it is a matter of what the handle was told (`Answered`, `Call.perform_told`); so it is
with calls in a row (`record_told`), which come to the same if nobody listens (`run_told`).
-/

namespace CommitReports.Commit.Handle

variable {ρ : Type} [History ρ] {α : Type}

/-! ## Calls on several handles -/

/-- A call on one of several handles, which are known by their numbers. -/
inductive Call where
  | whatChanged (i : Nat)
  | parent (i : Nat)
  | diff (i : Nat)
  | copy (i : Nat)
  deriving DecidableEq, Repr

namespace Call

/-- The handle that is called. -/
def target : Call → Nat
  | whatChanged i => i
  | parent i => i
  | diff i => i
  | copy i => i

/-- What belongs to each handle after a call, where a copy takes over what belongs to the original. -/
def inherit (call : Call) (states : List α) : List α :=
  match call with
  | copy i => states ++ states[i]?.toList
  | _ => states

end Call

/-- What comes of a call. -/
inductive Outcome where
  | text (result : Except Failure String)
  | commit (result : Except Failure Commit)
  | copied
  /-- There is no such handle. -/
  | absent
  deriving DecidableEq

/-- A query on one of several handles. -/
def performAt (query : Query ρ α) (outcome : Except Failure α → Outcome) (i : Nat)
    (handles : List Handle) (site : Site ρ) : (Outcome × List Handle) × Site ρ :=
  match handles[i]? with
  | none => ((.absent, handles), site)
  | some handle =>
    let ((result, handle), after) := perform query handle site
    ((outcome result, handles.set i handle), after)

/-- What comes of a call, the handles and the site afterwards. -/
def Call.perform (call : Call) (handles : List Handle) (site : Site ρ) :
    (Outcome × List Handle) × Site ρ :=
  match call with
  | whatChanged i => performAt Handle.whatChanged .text i handles site
  | parent i => performAt parentCommit .commit i handles site
  | diff i => performAt Handle.diff .text i handles site
  | copy i => ((if i < handles.length then .copied else .absent, call.inherit handles), site)

/-- What comes of calls in a row, the handles and the site afterwards. -/
def run : List Handle → Site ρ → List Call → (List Outcome × List Handle) × Site ρ
  | handles, site, [] => (([], handles), site)
  | handles, site, call :: calls =>
    let ((outcome, handles), site) := call.perform handles site
    let ((outcomes, handles), site) := run handles site calls
    ((outcome :: outcomes, handles), site)

/-! ## Listening to the calls -/

/-- A call, what was said between the handle and the history, what came of it, and the handles
afterwards. -/
structure Event where
  call : Call
  heard : List Exchange
  outcome : Outcome
  handles : List Handle

/-- Calls in a row, each with what was said. -/
def record : List Handle → Site ρ → List Call → List Event
  | _, _, [] => []
  | handles, site, call :: calls =>
    let ((outcome, handles), after) := call.perform handles (Overheard.hearing [] site)
    { call, heard := after.resource.heard, outcome, handles } ::
      record handles (Overheard.forget after) calls

/-- What each handle was told after a call, if it is known what it was told before. -/
def hear (told : List (List Exchange)) (call : Call) (heard : List Exchange) :
    List (List Exchange) :=
  call.inherit (told.modify call.target (· ++ heard))

/-- What each handle was told after an event. -/
def Event.tell (told : List (List Exchange)) (event : Event) : List (List Exchange) :=
  hear told event.call event.heard

/-- What each handle was told, if there is one at first, by the history, and a copy also by what its
original was told until then. -/
def told (events : List Event) : List (List Exchange) := events.foldl Event.tell [[]]

/-! ## What a handle learns -/

/-- What a commit says of itself, as it was answered first. -/
def firstSummary (told : List Exchange) : Option String :=
  told.findSome? fun
    | .whatChanged _ (.ok text) => some text
    | _ => none

/-- The parent, or that there is none, as it was answered first. -/
def firstParent (told : List Exchange) : Option (Option String) :=
  told.findSome? fun
    | .parent _ (.ok parent) => some parent
    | _ => none

/-- A handle that keeps the first answers. -/
def learned (commit : Commit) (told : List Exchange) : Handle :=
  { commit, parent := firstParent told, summary := firstSummary told }

/-- What is said on a call, and what comes of it, if the handle was told something before. -/
inductive Answered (commit : Commit) (mine : List Exchange) :
    Call → List Exchange → Outcome → Prop
  /-- What the commit says of itself is known. -/
  | keptSummary {i : Nat} {text : String} (known : firstSummary mine = some text) :
      Answered commit mine (.whatChanged i) [] (.text (.ok text))
  /-- It is asked for, and the answer is given, be it a failure. -/
  | askedSummary {i : Nat} {answer : Except Failure String} (unknown : firstSummary mine = none) :
      Answered commit mine (.whatChanged i) [.whatChanged commit.hash answer] (.text answer)
  /-- The parent is known, or that there is none. -/
  | keptParent {i : Nat} {parent : Option String} (known : firstParent mine = some parent) :
      Answered commit mine (.parent i) [] (.commit (commit.parentOf parent))
  /-- It is asked for. -/
  | askedParent {i : Nat} {answer : Except Failure (Option String)}
      (unknown : firstParent mine = none) :
      Answered commit mine (.parent i) [.parent commit.hash answer]
        (.commit (answer.bind commit.parentOf))
  /-- The patch starts from what is known. -/
  | keptBase {i : Nat} {parent : Option String} {patch : Except Failure String}
      (known : firstParent mine = some parent) :
      Answered commit mine (.diff i) [.diff parent commit.hash patch] (.text patch)
  /-- It is asked what the patch starts from. -/
  | askedBase {i : Nat} {parent : Option String} {patch : Except Failure String}
      (unknown : firstParent mine = none) :
      Answered commit mine (.diff i)
        [.parent commit.hash (.ok parent), .diff parent commit.hash patch] (.text patch)
  /-- The history fails for want of a parent: the patch starts from nothing. -/
  | noBase {i : Nat} {e : Failure} {patch : Except Failure String}
      (unknown : firstParent mine = none) (he : e.isNoParent = true) :
      Answered commit mine (.diff i)
        [.parent commit.hash (.error e), .diff none commit.hash patch] (.text patch)
  /-- The history fails for another reason: no patch is asked for. -/
  | failedBase {i : Nat} {e : Failure} (unknown : firstParent mine = none)
      (he : e.isNoParent = false) :
      Answered commit mine (.diff i) [.parent commit.hash (.error e)] (.text (.error e))
  | copied {i : Nat} : Answered commit mine (.copy i) [] .copied

/-! ## One call -/

theorem firstSummary_append (front back : List Exchange) :
    firstSummary (front ++ back) = (firstSummary front).or (firstSummary back) :=
  List.findSome?_append

theorem firstParent_append (front back : List Exchange) :
    firstParent (front ++ back) = (firstParent front).or (firstParent back) :=
  List.findSome?_append

variable {commit : Commit} {mine : List Exchange}

theorem learned_append_whatChanged (h : firstSummary mine = none) (answer : Except Failure String) :
    learned commit (mine ++ [.whatChanged commit.hash answer]) =
      { learned commit mine with summary := answer.toOption } := by
  simp only [learned, firstSummary_append, firstParent_append, h]
  cases answer <;> simp [firstSummary, firstParent, Except.toOption]

theorem learned_append_parent (h : firstParent mine = none)
    (answer : Except Failure (Option String)) :
    learned commit (mine ++ [.parent commit.hash answer]) =
      { learned commit mine with parent := answer.toOption } := by
  simp only [learned, firstSummary_append, firstParent_append, h]
  cases answer <;> simp [firstSummary, firstParent, Except.toOption]

theorem learned_append_diff (base : Option String) (patch : Except Failure String) :
    learned commit (mine ++ [.diff base commit.hash patch]) = learned commit mine := by
  simp only [learned, firstSummary_append, firstParent_append]
  simp [firstSummary, firstParent]

/-- Through a handle that was told something, a query comes to the same whether it is listened to or
not, and what is said is what has to be. -/
def Tells (commit : Commit) (mine : List Exchange) (query : Query ρ α)
    (overheard : Query (Overheard ρ) α) (call : Call) (outcome : Except Failure α → Outcome) : Prop :=
  ∀ site, ∃ heard result after,
    perform overheard (learned commit mine) (Overheard.hearing [] site) =
      ((result, learned commit (mine ++ heard)), Overheard.hearing heard after) ∧
    perform query (learned commit mine) site = ((result, learned commit (mine ++ heard)), after) ∧
    Answered commit mine call heard (outcome result)

theorem whatChanged_tells (commit : Commit) (mine : List Exchange) (i : Nat) :
    Tells commit mine (whatChanged : Query ρ String) whatChanged (.whatChanged i) .text := by
  intro site
  cases hmine : firstSummary mine with
  | some text =>
    refine ⟨[], .ok text, site, ?_, ?_, .keptSummary hmine⟩ <;>
      rw [perform_whatChanged_of_known hmine, List.append_nil]
  | none =>
    rcases hasked : (History.whatChanged commit.hash : Action ρ String).perform site with
      ⟨answer, after⟩
    refine ⟨[.whatChanged commit.hash answer], answer, after, ?_, ?_, .askedSummary hmine⟩
    · rw [learned_append_whatChanged hmine]
      exact perform_whatChanged_of_unknown hmine (Overheard.perform_overhear hasked)
    · rw [learned_append_whatChanged hmine]
      exact perform_whatChanged_of_unknown hmine hasked

/-- Finding the parent comes to the same as well. -/
theorem parentHash_tells (commit : Commit) (mine : List Exchange) (site : Site ρ) :
    ∃ heard answer after,
      perform parentHash (learned commit mine) (Overheard.hearing [] site) =
        ((answer, learned commit (mine ++ heard)), Overheard.hearing heard after) ∧
      perform parentHash (learned commit mine) site =
        ((answer, learned commit (mine ++ heard)), after) ∧
      ((∃ parent, heard = [] ∧ answer = .ok parent ∧ firstParent mine = some parent) ∨
        heard = [.parent commit.hash answer] ∧ firstParent mine = none) := by
  cases hmine : firstParent mine with
  | some parent =>
    refine ⟨[], .ok parent, site, ?_, ?_, .inl ⟨parent, rfl, rfl, rfl⟩⟩ <;>
      rw [perform_parentHash_of_known hmine, List.append_nil]
  | none =>
    rcases hasked : (History.parent commit.hash : Action ρ (Option String)).perform site with
      ⟨answer, after⟩
    refine ⟨[.parent commit.hash answer], answer, after, ?_, ?_, .inr ⟨rfl, rfl⟩⟩
    · rw [learned_append_parent hmine]
      exact perform_parentHash_of_unknown hmine (Overheard.perform_overhear hasked)
    · rw [learned_append_parent hmine]
      exact perform_parentHash_of_unknown hmine hasked

theorem parentCommit_tells (commit : Commit) (mine : List Exchange) (i : Nat) :
    Tells commit mine (parentCommit : Query ρ Commit) parentCommit (.parent i) .commit := by
  intro site
  obtain ⟨heard, answer, after, hoverheard, hplain, hcause⟩ := parentHash_tells commit mine site
  refine ⟨heard, answer.bind commit.parentOf, after, ?_, ?_, ?_⟩
  · rw [perform_parentCommit, hoverheard]
    rfl
  · rw [perform_parentCommit, hplain]
    rfl
  · rcases hcause with ⟨parent, rfl, rfl, hknown⟩ | ⟨rfl, hunknown⟩
    · exact .keptParent hknown
    · exact .askedParent hunknown

/-- So does finding what a patch starts from. A patch is asked for then, or what has failed is what
comes of the call. -/
theorem base_tells (commit : Commit) (mine : List Exchange) (i : Nat) (site : Site ρ) :
    ∃ heard found between,
      perform base (learned commit mine) (Overheard.hearing [] site) =
        ((found, learned commit (mine ++ heard)), Overheard.hearing heard between) ∧
      perform base (learned commit mine) site = ((found, learned commit (mine ++ heard)), between) ∧
      (∀ start patch, found = .ok start →
        Answered commit mine (.diff i) (heard ++ [.diff start commit.hash patch]) (.text patch)) ∧
      ∀ e, found = .error e → Answered commit mine (.diff i) heard (.text (.error e)) := by
  obtain ⟨heard, answer, between, hoverheard, hplain, hcause⟩ := parentHash_tells commit mine site
  rw [perform_base, perform_base, hoverheard, hplain]
  rcases hcause with ⟨parent, rfl, rfl, hknown⟩ | ⟨rfl, hunknown⟩
  · refine ⟨[], .ok parent, between, rfl, rfl, ?_, nofun⟩
    rintro _ patch ⟨⟩
    exact .keptBase hknown
  · cases answer with
    | ok parent =>
      refine ⟨_, .ok parent, between, rfl, rfl, ?_, nofun⟩
      rintro _ patch ⟨⟩
      exact .askedBase hunknown
    | error e =>
      cases he : e.isNoParent with
      | true =>
        refine ⟨[.parent commit.hash (.error e)], .ok none, between, by simp [he], by simp [he], ?_,
          nofun⟩
        rintro _ patch ⟨⟩
        exact .noBase hunknown he
      | false =>
        refine ⟨[.parent commit.hash (.error e)], .error e, between, by simp [he], by simp [he], nofun,
          ?_⟩
        rintro _ ⟨⟩
        exact .failedBase hunknown he

theorem diff_tells (commit : Commit) (mine : List Exchange) (i : Nat) :
    Tells commit mine (diff : Query ρ String) diff (.diff i) .text := by
  intro site
  obtain ⟨heard, found, between, hoverheard, hplain, hfound, hfailed⟩ := base_tells commit mine i site
  rw [perform_diff, perform_diff, hoverheard, hplain]
  cases found with
  | error e => exact ⟨heard, .error e, between, rfl, rfl, hfailed e rfl⟩
  | ok start =>
    rcases hasked : (History.diff start commit.hash : Action ρ String).perform between with
      ⟨patch, after⟩
    have hheard : (History.diff start commit.hash : Action (Overheard ρ) String).perform
        (Overheard.hearing heard between) =
          (patch, Overheard.hearing (heard ++ [.diff start commit.hash patch]) after) :=
      Overheard.perform_overhear hasked
    refine ⟨heard ++ [.diff start commit.hash patch], patch, after, ?_, ?_, hfound start patch rfl⟩
    · rw [← List.append_assoc, learned_append_diff]
      dsimp only [learned]
      rw [hheard]
    · rw [← List.append_assoc, learned_append_diff]
      dsimp only [learned]
      rw [hasked]

/-! ## Calls in a row -/

theorem map_inherit {β : Type} (f : α → β) (call : Call) (states : List α) :
    (call.inherit states).map f = call.inherit (states.map f) := by
  cases call with
  | copy i => cases hstate : states[i]? <;> simp [Call.inherit, hstate]
  | _ => rfl

theorem modify_append_nil (told : List (List Exchange)) (i : Nat) :
    told.modify i (· ++ []) = told := by
  simp only [List.append_nil]
  exact List.modify_id i told

omit [History ρ] in
/-- A query on one of the handles comes to what its handle tells. -/
theorem performAt_told {query : Query ρ α} {overheard : Query (Overheard ρ) α} {call : Call}
    {outcome : Except Failure α → Outcome} (hcopy : ∀ i, call ≠ .copy i)
    (htells : ∀ mine, Tells commit mine query overheard call outcome)
    (told : List (List Exchange)) (site : Site ρ) :
    ∃ heard result after,
      performAt overheard outcome call.target (told.map (learned commit)) (Overheard.hearing [] site) =
        ((result, (hear told call heard).map (learned commit)), Overheard.hearing heard after) ∧
      performAt query outcome call.target (told.map (learned commit)) site =
        ((result, (hear told call heard).map (learned commit)), after) ∧
      ∀ mine, told[call.target]? = some mine → Answered commit mine call heard result := by
  have hinherit : ∀ states : List (List Exchange), call.inherit states = states := by
    cases call with
    | copy i => exact absurd rfl (hcopy i)
    | _ => exact fun _ => rfl
  simp only [performAt, hear, hinherit, List.getElem?_map]
  cases hmine : told[call.target]? with
  | none =>
    refine ⟨[], .absent, site, ?_, ?_, nofun⟩ <;> rw [modify_append_nil] <;> rfl
  | some mine =>
    obtain ⟨heard, result, after, hoverheard, hplain, hanswered⟩ := htells mine site
    have hset : (told.map (learned commit)).set call.target (learned commit (mine ++ heard)) =
        (told.modify call.target (· ++ heard)).map (learned commit) := by
      rw [List.modify_eq_set_getElem?, hmine, Option.map_eq_map, Option.map_some, Option.getD_some,
        List.map_set]
    refine ⟨heard, outcome result, after, ?_, ?_, ?_⟩
    · simp [hoverheard, hset]
    · simp [hplain, hset]
    · rintro _ ⟨⟩
      exact hanswered

/-- A call comes to the same whether it is listened to or not, and what is said is what has to be. -/
theorem Call.perform_told (commit : Commit) (call : Call) (told : List (List Exchange))
    (site : Site ρ) :
    ∃ heard outcome after,
      call.perform (told.map (learned commit)) (Overheard.hearing [] site) =
        ((outcome, (hear told call heard).map (learned commit)), Overheard.hearing heard after) ∧
      call.perform (told.map (learned commit)) site =
        ((outcome, (hear told call heard).map (learned commit)), after) ∧
      ∀ mine, told[call.target]? = some mine → Answered commit mine call heard outcome := by
  cases call with
  | whatChanged i => exact performAt_told (by simp) (whatChanged_tells commit · i) told site
  | parent i => exact performAt_told (by simp) (parentCommit_tells commit · i) told site
  | diff i => exact performAt_told (by simp) (diff_tells commit · i) told site
  | copy i =>
    have hhear : hear told (.copy i) [] = (Call.copy i).inherit told := by
      rw [hear, modify_append_nil]
    refine ⟨[], if i < told.length then .copied else .absent, site, ?_, ?_, fun mine hmine => ?_⟩
    · rw [hhear, map_inherit, Call.perform, List.length_map]
    · rw [hhear, map_inherit, Call.perform, List.length_map]
    · obtain ⟨hlt, -⟩ : ∃ h : i < told.length, told[i] = mine := List.getElem?_eq_some_iff.mp hmine
      rw [if_pos hlt]
      exact .copied

theorem record_cons {call : Call} {handles after : List Handle} {site between : Site ρ}
    {heard : List Exchange} {outcome : Outcome}
    (h : call.perform handles (Overheard.hearing [] site) =
      ((outcome, after), Overheard.hearing heard between)) (calls : List Call) :
    record handles site (call :: calls) =
      { call, heard, outcome, handles := after } :: record after between calls := by
  rw [record, h]
  rfl

theorem run_cons {call : Call} {handles after : List Handle} {site between : Site ρ}
    {outcome : Outcome} (h : call.perform handles site = ((outcome, after), between))
    (calls : List Call) :
    (run handles site (call :: calls)).1 =
      (outcome :: (run after between calls).1.1, (run after between calls).1.2) := by
  rw [run, h]

/-- Listening changes nothing, and at each point the handles have learned what they were told. -/
theorem run_told (commit : Commit) (told : List (List Exchange)) (site : Site ρ) (calls : List Call) :
    (run (told.map (learned commit)) site calls).1 =
      ((record (told.map (learned commit)) site calls).map (·.outcome),
        ((record (told.map (learned commit)) site calls).foldl Event.tell told).map
          (learned commit)) := by
  induction calls generalizing told site with
  | nil => rfl
  | cons call calls ih =>
    obtain ⟨heard, outcome, between, hoverheard, hplain, -⟩ := call.perform_told commit told site
    rw [record_cons hoverheard, run_cons hplain, ih]
    rfl

/-- Each event is what it has to be for what the handles were told before. -/
theorem record_told {commit : Commit} {told : List (List Exchange)} {site : Site ρ}
    {calls : List Call} {before after : List Event} {event : Event}
    (h : record (told.map (learned commit)) site calls = before ++ event :: after) :
    (∀ mine, (before.foldl Event.tell told)[event.call.target]? = some mine →
      Answered commit mine event.call event.heard event.outcome) ∧
    event.handles = ((before ++ [event]).foldl Event.tell told).map (learned commit) := by
  induction calls generalizing told site before with
  | nil => exact absurd h (by simp [record])
  | cons call calls ih =>
    obtain ⟨heard, outcome, between, hoverheard, -, hanswered⟩ := call.perform_told commit told site
    rw [record_cons hoverheard] at h
    cases before with
    | nil =>
      obtain ⟨rfl, -⟩ := List.cons.inj h
      exact ⟨hanswered, rfl⟩
    | cons first before =>
      obtain ⟨rfl, hrest⟩ := List.cons.inj h
      have htail : record ((hear told call heard).map (learned commit)) between calls =
          before ++ event :: after := hrest
      have hlater := ih htail
      exact hlater

end CommitReports.Commit.Handle
