import CommitReports.History.Recorded
import CommitReports.Proofs.History.Answers

/-!
# The answers of a recorded history

A recorded history answers from its records, and the records do not change while
it answers: what changes are its counts and the list of checkouts. So it holds to
`Recorded.answers` as long as the records are the same (`Recorded.hold`), and it
leaves the disk alone.
-/

namespace CommitReports.Recorded

/-- Two histories have the same commits and branches. -/
structure SameRecords (h other : Recorded) : Prop where
  order : other.order = h.order
  parents : other.parents = h.parents
  branches : other.branches = h.branches

/-- Two histories have the same records and reach the same remote. -/
structure Alike (h other : Recorded) : Prop extends h.SameRecords other where
  unreachable : other.unreachable = h.unreachable

theorem Alike.refl (h : Recorded) : h.Alike h := ⟨⟨rfl, rfl, rfl⟩, rfl⟩

/-- Counting changes no records. -/
theorem Alike.recount {h now counted : Recorded} (halike : h.Alike now)
    (hsame : now.SameRecords counted) (hremote : counted.unreachable = now.unreachable) :
    h.Alike counted where
  order := hsame.order.trans halike.order
  parents := hsame.parents.trans halike.parents
  branches := hsame.branches.trans halike.branches
  unreachable := hremote.trans halike.unreachable

/-- The hash that a name stands for, or that there is none. -/
def found (h : Recorded) (name : String) : Except Failure String :=
  match h.lookup? name with
  | some hash => .ok hash
  | none => .error (.unresolvable name)

/-- What a recorded history answers. -/
def answers (h : Recorded) : Answers where
  resolve := h.found
  commitsBetween since upto := do
    let since ← h.found since
    let upto ← h.found upto
    return h.between since upto
  parent name := do
    let hash ← h.found name
    return (h.parents.parentsOf hash).head?
  whatChanged name := do
    let hash ← h.found name
    return s!"commit {hash}\n:000000 100644 A\tfile-{hash}"
  diff base name := do
    let hash ← h.found name
    match base with
    | some base =>
      let baseHash ← h.found base
      return s!"diff {baseHash}..{hash}"
    | none => return s!"diff empty..{hash}"
  hasLocalBranch name := .ok (h.branches.lookup name).isSome
  checkout name :=
    if (h.branches.lookup name).isNone then .error (.unresolvable name) else .ok ()
  refresh := if h.unreachable then .error (.unavailable "remote unreachable") else .ok ()

variable {h : Recorded} {files : Files}

/-- The records and the disk are as they were. -/
def Unchanged (h : Recorded) (files : Files) (now : Recorded) (d : Files) : Prop :=
  h.Alike now ∧ d = files

theorem SameRecords.lookup? {now : Recorded} (hsame : h.SameRecords now) (name : String) :
    now.lookup? name = h.lookup? name := by
  unfold Recorded.lookup?
  rw [hsame.branches, hsame.parents]

theorem SameRecords.between {now : Recorded} (hsame : h.SameRecords now) (since upto : String) :
    now.between since upto = h.between since upto := by
  unfold Recorded.between
  rw [hsame.order, hsame.parents]

/-- What is settled for every history with the same records. -/
private theorem settled_resource {β : Type} {next : Recorded → Action Recorded β}
    {result : Except Failure β}
    (hnext : ∀ now, h.Alike now → (next now).Settled (Unchanged h files) result) :
    (Action.resource >>= next).Settled (Unchanged h files) result := by
  intro site hsite
  rw [Action.perform_bind, Action.perform_resource]
  exact hnext site.resource hsite.1 site hsite

/-- What is done to the counts does not matter. -/
private theorem settled_change {β : Type} {f : Recorded → Recorded} {next : Action Recorded β}
    {result : Except Failure β} (hf : ∀ now, h.Alike now → h.Alike (f now))
    (hnext : next.Settled (Unchanged h files) result) :
    (Action.change f >>= fun _ => next).Settled (Unchanged h files) result := by
  intro site hsite
  rw [Action.perform_bind, Action.perform_change]
  exact hnext { site with resource := f site.resource } ⟨hf _ hsite.1, hsite.2⟩

theorem find_settled (name : String) :
    (find name).Settled (Unchanged h files) (h.found name) := by
  refine settled_resource fun now halike => ?_
  rw [halike.toSameRecords.lookup?, found]
  cases h.lookup? name with
  | some hash => exact .pure hash
  | none => exact .throw _

/-- **A recorded history holds to its answers**, and leaves the disk alone. -/
theorem hold (h : Recorded) (files : Files) : h.answers.Hold (Unchanged h files) where
  resolve := find_settled
  commitsBetween since upto := by
    refine (find_settled since).bind fun since => (find_settled upto).bind fun upto => ?_
    refine settled_resource fun now halike => ?_
    rw [halike.toSameRecords.between]
    exact .pure _
  parent name := by
    refine (find_settled name).bind fun hash => settled_resource fun now halike => ?_
    rw [halike.parents]
    exact .pure _
  whatChanged name := by
    refine settled_change (fun now halike => halike.recount ⟨rfl, rfl, rfl⟩ rfl) ?_
    exact (find_settled name).bind fun _ => .pure _
  diff base tip := by
    refine settled_change (fun now halike => halike.recount ⟨rfl, rfl, rfl⟩ rfl) ?_
    refine (find_settled tip).bind fun hash => ?_
    cases base with
    | none => exact .pure _
    | some base => exact (find_settled base).bind fun _ => .pure _
  hasLocalBranch name := by
    refine settled_resource fun now halike => ?_
    rw [halike.branches]
    exact .pure _
  checkout branch := by
    -- A checkout is noted down, which changes no records.
    refine settled_resource fun now halike => ?_
    rw [halike.branches]
    unfold answers
    simp only
    split
    next => exact fun _ hsite => ⟨rfl, hsite⟩
    next =>
      rintro _ ⟨halike, hdisk⟩
      exact ⟨rfl, halike.recount ⟨rfl, rfl, rfl⟩ rfl, hdisk⟩
  refresh := by
    refine settled_change (fun now halike => halike.recount ⟨rfl, rfl, rfl⟩ rfl) ?_
    refine settled_resource fun now halike => ?_
    rw [halike.unreachable]
    unfold answers
    simp only
    split
    next => exact .throw _
    next => exact .pure _

/-- It does so whatever is done to the disk. -/
theorem hold_anywhere (h : Recorded) : h.answers.Hold fun now _ => h.Alike now where
  resolve revision := .of_disks fun files => (h.hold files).resolve revision
  commitsBetween since upto := .of_disks fun files => (h.hold files).commitsBetween since upto
  parent commit := .of_disks fun files => (h.hold files).parent commit
  whatChanged commit := .of_disks fun files => (h.hold files).whatChanged commit
  diff base tip := .of_disks fun files => (h.hold files).diff base tip
  hasLocalBranch name := .of_disks fun files => (h.hold files).hasLocalBranch name
  checkout branch := .of_disks fun files => (h.hold files).checkout branch
  refresh := .of_disks fun files => (h.hold files).refresh

end CommitReports.Recorded
