import CommitReports.Proofs.Git.LocalCommits
import CommitReports.Proofs.Git.WorkingTree

/-!
# What `HEAD` leads to

`HEAD` leads to an object by references, from there to a commit by tags, and from the
commit to its files. Both ways are followed for a limited number of steps. A limit that
was enough once is so for all that is found on the way: whatever limits two searches
have, what both find is the same (`ObjectStore.peel_unique`). So the files that the
working tree is taken to show are those of the commit that `HEAD` leads to
(`Repository.eq_of_headSnapshot`), and a `HEAD` that was put on a branch leads to what
the branch led to before, if it leads anywhere (`Repository.target?_of_headSet`). A
branch that leads to `HEAD` itself would lead round in a circle from then on.
-/

namespace CommitReports.Git

/-! ## From an object to a commit and its tree -/

namespace ObjectStore

variable {store : ObjectStore} {target : ObjectKind} {fuel more : Nat}
  {id found other commit tree : ObjectId}

/-- Where an object leads next: a tag to its target, a commit to its tree. -/
def next? (store : ObjectStore) (id : ObjectId) : Option ObjectId :=
  match store.kind? id with
  | some .tag => (store.tag? id).bind fun tag =>
    if store.kind? tag.target = some tag.kind then some tag.target else none
  | some .commit => (store.commit? id).map (·.tree)
  | _ => none

theorem peel_succ : store.peel target (fuel + 1) id =
    if store.kind? id = some target then some id
    else (store.next? id).bind (store.peel target fuel) := by
  rw [peel, next?]
  cases store.kind? id with
  | none => rfl
  | some kind =>
    simp only [Option.some.injEq]
    split
    next => rfl
    next =>
      cases kind with
      | commit => exact Option.bind_map.symm
      | tree => rfl
      | blob => rfl
      | tag =>
        simp only [Option.bind_assoc]
        refine congrArg _ (funext fun tag => ?_)
        split <;> rfl

theorem peel_mono (h : store.peel target fuel id = some found) (hle : fuel ≤ more) :
    store.peel target more id = some found := by
  induction fuel generalizing id more with
  | zero => cases h
  | succ fuel ih =>
    obtain ⟨more, rfl⟩ := Nat.exists_eq_succ_of_ne_zero (Nat.ne_of_gt (Nat.lt_of_lt_of_le
      fuel.succ_pos hle))
    rw [peel_succ] at h ⊢
    split
    next hkind => rwa [if_pos hkind] at h
    next hkind =>
      rw [if_neg hkind] at h
      obtain ⟨next, hnext, hrest⟩ := Option.bind_eq_some_iff.mp h
      rw [hnext]
      exact ih hrest (Nat.le_of_succ_le_succ hle)

/-- Two searches that find something find the same. -/
theorem peel_unique (h : store.peel target fuel id = some found)
    (hother : store.peel target more id = some other) : found = other := by
  have hfound := peel_mono h (Nat.le_max_left fuel more)
  rw [peel_mono hother (Nat.le_max_right fuel more)] at hfound
  exact (Option.some.inj hfound).symm

theorem kind?_of_peel (h : store.peel target fuel id = some found) :
    store.kind? found = some target := by
  induction fuel generalizing id with
  | zero => cases h
  | succ fuel ih =>
    rw [peel_succ] at h
    split at h
    next hkind =>
      cases h
      exact hkind
    next =>
      obtain ⟨next, -, hrest⟩ := Option.bind_eq_some_iff.mp h
      exact ih hrest

/-- The tree that an object leads to is that of the commit that it leads to. -/
theorem eq_tree_of_peel {fuel' fuel'' : Nat} (hcommit : store.peel .commit fuel id = some commit)
    (hfound : store.peel .tree fuel' id = some found)
    (htree : store.peel .tree fuel'' commit = some tree) : found = tree := by
  induction fuel generalizing id fuel' with
  | zero => cases hcommit
  | succ fuel ih =>
    rw [peel_succ] at hcommit
    split at hcommit
    next =>
      cases hcommit
      exact peel_unique hfound htree
    next =>
      obtain ⟨next, hnext, hrest⟩ := Option.bind_eq_some_iff.mp hcommit
      cases fuel' with
      | zero => cases hfound
      | succ fuel' =>
        rw [peel_succ] at hfound
        split at hfound
        next hkind =>
          -- A tree leads nowhere.
          rw [next?, hkind] at hnext
          cases hnext
        next =>
          rw [hnext] at hfound
          exact ih hrest hfound

/-- A commit leads to its tree. -/
theorem peelTo_tree {info : CommitInfo} (h : store.commit id = .ok info)
    (htree : store.kind? info.tree = some .tree) : store.peelTo .tree id = some info.tree := by
  obtain ⟨hkind, -⟩ := peelTo_commit h
  have hpeel : store.peel .tree 2 id = some info.tree := by
    rw [peel_succ, next?, hkind, if_neg (by decide), commit?_eq_some_iff.mpr h]
    simp only [Option.map_some, Option.bind_some]
    rw [peel_succ, htree, if_pos rfl]
  refine peel_mono hpeel (Nat.succ_le_succ (List.length_pos_iff.mpr ?_))
  intro hnil
  rw [commit, find?, hnil] at h
  cases h

theorem isSome_commit?_of_kind? (h : store.kind? id = some .commit) : (store.commit? id).isSome := by
  unfold kind? at h
  split at h
  next => cases h
  next => cases h
  next => cases h
  next =>
    obtain ⟨info, hinfo, -⟩ := Option.map_eq_some_iff.mp h
    rw [hinfo]
    rfl
  next => simp at h

end ObjectStore

namespace Repository

variable {repository before after : Repository} {name ref : String} {kind : ObjectKind}
  {id commit : ObjectId} {files shown : Snapshot} {levels more : Nat} {found : String × ObjectId}

/-! ## From `HEAD` to an object -/

theorem follow?_mono (h : repository.follow? levels name = some found) (hle : levels ≤ more) :
    repository.follow? more name = some found := by
  induction levels generalizing name more with
  | zero =>
    unfold follow? at h ⊢
    split
    next hnone => rwa [hnone] at h
    next id hobject => rwa [hobject] at h
    next next hreference =>
      rw [hreference] at h
      cases h
  | succ levels ih =>
    obtain ⟨more, rfl⟩ := Nat.exists_eq_succ_of_ne_zero (Nat.ne_of_gt (Nat.lt_of_lt_of_le
      levels.succ_pos hle))
    unfold follow? at h ⊢
    split
    next hnone => rwa [hnone] at h
    next id hobject => rwa [hobject] at h
    next next hreference =>
      rw [hreference] at h
      exact ih h (Nat.le_of_succ_le_succ hle)

/-- A repository that differs from another one in what `HEAD` stands for: a reference. -/
structure HeadSet (before after : Repository) (ref : String) : Prop where
  head : after.head = .reference ref
  ref? : ∀ name, name ≠ "HEAD" → after.ref? name = before.ref? name

namespace HeadSet

/-- What a name leads to it led to before, unless the way goes through `HEAD`. -/
theorem follow?_cases (h : HeadSet before after ref) (hfound : after.follow? levels name = some found) :
    before.follow? levels name = some found ∨
      ∃ fewer < levels, after.follow? fewer ref = some found := by
  induction levels generalizing name with
  | zero =>
    by_cases hname : name = "HEAD"
    · subst hname
      rw [follow?, Repository.ref?, if_pos rfl, h.head] at hfound
      cases hfound
    · rw [follow?, h.ref? name hname] at hfound
      rw [follow?]
      exact .inl hfound
  | succ levels ih =>
    by_cases hname : name = "HEAD"
    · subst hname
      rw [follow?, Repository.ref?, if_pos rfl, h.head] at hfound
      exact .inr ⟨levels, levels.lt_succ_self, hfound⟩
    · rw [follow?, h.ref? name hname] at hfound
      rw [follow?]
      cases hbefore : before.ref? name with
      | none =>
        rw [hbefore] at hfound
        cases hfound
      | some target =>
        rw [hbefore] at hfound
        cases target with
        | object id => exact .inl hfound
        | reference next =>
          rcases ih hfound with hsame | ⟨fewer, hlt, hagain⟩
          · exact .inl hsame
          · exact .inr ⟨fewer, hlt.trans levels.lt_succ_self, hagain⟩

/-- A way round through `HEAD` can be left out, so the reference led there before. -/
theorem follow?_eq (h : HeadSet before after ref) (hfound : after.follow? levels ref = some found) :
    before.follow? levels ref = some found := by
  induction levels using Nat.strongRecOn with
  | ind levels ih =>
    rcases h.follow?_cases hfound with hbefore | ⟨fewer, hlt, hagain⟩
    · exact hbefore
    · exact follow?_mono (ih fewer hlt hagain) hlt.le

/-- **What `HEAD` leads to after it was put on a branch is what the branch led to.** -/
theorem target? (h : HeadSet before after ref) (htarget : after.target? "HEAD" = some id) :
    before.target? ref = some id := by
  obtain ⟨found, hfound, rfl⟩ := Option.map_eq_some_iff.mp htarget
  rw [maxLevels, follow?, Repository.ref?, if_pos rfl, h.head] at hfound
  exact Option.map_eq_some_iff.mpr ⟨found, follow?_mono (h.follow?_eq hfound) (by decide), rfl⟩

end HeadSet

/-! ## The commit of `HEAD` and its files -/

theorem peelRef_eq_ok_iff : repository.peelRef name kind = .ok commit ↔
    ∃ id, repository.target? name = some id ∧ (repository.objects.kind? id).isSome ∧
      repository.objects.peelTo kind id = some commit := by
  unfold peelRef
  cases repository.target? name with
  | none => simp
  | some id =>
    cases hkind : repository.objects.kind? id with
    | none => simp [hkind]
    | some own => cases hpeel : repository.objects.peelTo kind id <;> simp [hkind, hpeel]

theorem isSome_commit?_of_peelRef (h : repository.peelRef name .commit = .ok commit) :
    (repository.objects.commit? commit).isSome := by
  obtain ⟨id, -, -, hpeel⟩ := peelRef_eq_ok_iff.mp h
  exact ObjectStore.isSome_commit?_of_kind? (ObjectStore.kind?_of_peel hpeel)

/-- Files are a matter of the objects. -/
theorem snapshot?_congr (h : after.objects = before.objects) (commit : ObjectId) :
    after.snapshot? commit = before.snapshot? commit := by
  unfold snapshot?
  rw [h]

theorem pairwise_of_snapshot? (h : repository.snapshot? commit = some files) :
    files.Pairwise fun a b => a.1 ≤ b.1 := by
  obtain ⟨tree, -, htree⟩ := Option.bind_eq_some_iff.mp h
  obtain ⟨flat, -, rfl⟩ := Option.map_eq_some_iff.mp htree
  exact Snapshot.pairwise_sorted flat

/-- The files that `HEAD` leads to are those of the commit that it leads to. -/
theorem eq_of_headSnapshot (hhead : repository.peelRef "HEAD" .commit = .ok commit)
    (hfiles : repository.snapshot? commit = some files)
    (h : repository.headSnapshot = .ok shown) : shown = files := by
  obtain ⟨id, htarget, -, hcommit⟩ := peelRef_eq_ok_iff.mp hhead
  obtain ⟨⟨last, id⟩, hfollow, rfl⟩ := Option.map_eq_some_iff.mp htarget
  have hlast : repository.headRef? = some last := by rw [headRef?, hfollow, Option.map_some]
  unfold headSnapshot at h
  rw [hlast] at h
  dsimp only at h
  cases hpeel : repository.peelRef last .tree with
  | error reason =>
    rw [hpeel] at h
    cases h
  | ok found =>
    rw [hpeel] at h
    cases h
    obtain ⟨id', htarget', -, hfound⟩ := peelRef_eq_ok_iff.mp hpeel
    cases (target?_of_ref? (ref?_of_follow? hfollow)).symm.trans htarget'
    obtain ⟨tree, htree, hflat⟩ := Option.bind_eq_some_iff.mp hfiles
    rw [ObjectStore.eq_tree_of_peel hcommit hfound htree]
    exact congrArg (Option.getD · []) hflat

end Repository

end CommitReports.Git
