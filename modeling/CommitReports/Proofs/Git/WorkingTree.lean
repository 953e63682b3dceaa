import CommitReports.Proofs.Git.Snapshot

/-!
# Working trees follow

A working tree shows a snapshot if each file of the snapshot stands there as it should
and no other file does (`Worktree.Shows`). From such a tree no step towards another
snapshot but a conflict leaves a file as it is: what ends is removed, what begins or
becomes another file is written (`Shows.step_eq`).

What removing and writing do is said place by place. To remove a path changes nothing
but that some places at it or above it are free afterwards (`find?_remove`), to write
one nothing but that there are directories above it (`find?_write_of_ne`). Files of one
snapshot are never above each other. So what is removed and what is written leaves all
the files alone that both snapshots have, and in the end the tree shows the second one
(`Shows.of_change`), with the index beside it (`Shows.of_showFiles`).
-/

namespace CommitReports.Git

namespace Worktree

variable {objects : ObjectStore} {worktree changed : Worktree} {before after snapshot : Snapshot}
  {root place other : Place} {files : Files} {path : String} {file : TreeFile}

/-! ## One place after another -/

/-- Pruning frees places from the one that it starts at upwards, and changes no others. -/
theorem find?_prune (fuel : Nat) :
    (prune root files fuel place).find? other = files.find? other ∨
      other <+: place ∧ (prune root files fuel place).find? other = none := by
  induction fuel generalizing files place with
  | zero => exact .inl rfl
  | succ fuel ih =>
    rw [prune]
    split
    next => exact .inl rfl
    next hstop =>
      have hne : place ≠ [] := by
        rintro rfl
        exact hstop (.inl (Nat.zero_le _))
      have hrest : (prune root (files.erase place) fuel place.dropLast).find? other =
            (files.erase place).find? other ∨
          other <+: place.dropLast ∧
            (prune root (files.erase place) fuel place.dropLast).find? other = none := ih
      rcases hrest with hsame | ⟨habove, hfree⟩
      · by_cases hself : other = place
        · subst hself
          exact .inr ⟨List.prefix_rfl, hsame.trans (files.find?_erase_self hne)⟩
        · exact .inl (hsame.trans (files.find?_erase_of_ne hself))
      · exact .inr ⟨habove.trans (List.dropLast_prefix place), hfree⟩

theorem placeOf_ne_nil (worktree : Worktree) (path : String) : worktree.placeOf path ≠ [] :=
  List.append_ne_nil_of_right_ne_nil _ (Snapshot.names_ne_nil path)

theorem placeOf_injective (worktree : Worktree) : Function.Injective worktree.placeOf :=
  fun _ _ h => Snapshot.names_injective (List.append_cancel_left h)

/-- A place above that of another path, or the same, is in its way. -/
theorem inTheWay_of_placeOf {path other : String}
    (h : worktree.placeOf path <+: worktree.placeOf other) : Snapshot.inTheWay path other = true := by
  rw [Snapshot.inTheWay_comm]
  exact Snapshot.inTheWay_of_prefix ((List.prefix_append_right_inj _).mp h)

/-- Nothing stands at a path that was removed. -/
theorem find?_remove_self (worktree : Worktree) (path : String) :
    (worktree.remove path).files.find? (worktree.placeOf path) = none := by
  have herased := worktree.files.find?_erase_self (worktree.placeOf_ne_nil path)
  rcases find?_prune (worktree.placeOf path).length with hsame | ⟨-, hfree⟩
  · exact hsame.trans herased
  · exact hfree

/-- Removing a path frees places at it and above it, and changes no others. -/
theorem find?_remove (worktree : Worktree) (path : String) (other : Place) :
    (worktree.remove path).files.find? other = worktree.files.find? other ∧
        other ≠ worktree.placeOf path ∨
      other <+: worktree.placeOf path ∧ (worktree.remove path).files.find? other = none := by
  by_cases hself : other = worktree.placeOf path
  · subst hself
    exact .inr ⟨List.prefix_rfl, worktree.find?_remove_self path⟩
  · rcases find?_prune (worktree.placeOf path).length with hsame | ⟨habove, hfree⟩
    · exact .inl ⟨hsame.trans (worktree.files.find?_erase_of_ne hself), hself⟩
    · exact .inr ⟨habove.trans (List.dropLast_prefix _), hfree⟩

/-- Providing what is above a place makes directories there, and changes nothing else. -/
theorem find?_provideAbove (files : Files) (place other : Place) :
    (provideAbove files place).find? other = files.find? other ∨
      other <+: place ∧ other ≠ place ∧
        (provideAbove files place).find? other = some .directory := by
  unfold provideAbove
  have hlengths : ∀ n ∈ List.range place.length, n < place.length :=
    fun n hn => List.mem_range.mp hn
  -- Any lengths below that of the place will do.
  generalize List.range place.length = lengths at hlengths
  induction lengths generalizing files with
  | nil => exact .inl rfl
  | cons n rest ih =>
    obtain ⟨hn, hrest⟩ := List.forall_mem_cons.mp hlengths
    rw [List.foldl_cons]
    split
    next => exact ih files hrest
    next hmissing =>
      rcases ih (files.put (place.take n) .directory) hrest with hsame | hmade
      · by_cases hself : other = place.take n
        · subst hself
          have hne : place.take n ≠ [] := by
            intro hnil
            rw [hnil] at hmissing
            exact hmissing rfl
          refine .inr ⟨List.take_prefix n place, fun heq => ?_,
            hsame.trans (files.find?_put_self _ hne)⟩
          have hlength := congrArg List.length heq
          rw [List.length_take] at hlength
          omega
        · exact .inl (hsame.trans (files.find?_put_of_ne _ hself))
      · exact .inr hmade

theorem find?_write_self (worktree : Worktree) (objects : ObjectStore) (path : String)
    (file : TreeFile) : (worktree.write objects path file).files.find? (worktree.placeOf path) =
      some (entryOf objects file) :=
  Files.find?_put_self _ _ (worktree.placeOf_ne_nil path)

/-- Writing a path makes directories above it, and changes no other place. -/
theorem find?_write_of_ne (file : TreeFile) (h : other ≠ worktree.placeOf path) :
    (worktree.write objects path file).files.find? other = worktree.files.find? other ∨
      other <+: worktree.placeOf path ∧
        (worktree.write objects path file).files.find? other = some .directory := by
  have hput := (provideAbove worktree.files (worktree.placeOf path)).find?_put_of_ne
    (entryOf objects file) h
  rcases find?_provideAbove worktree.files (worktree.placeOf path) other with
    hsame | ⟨habove, -, hmade⟩
  · exact .inl (hput.trans hsame)
  · exact .inr ⟨habove, hput.trans hmade⟩

/-! ## Many paths -/

/-- The working tree without some paths. -/
def removeAll (worktree : Worktree) (paths : List String) : Worktree := paths.foldl remove worktree

/-- The working tree with some files written to it. -/
def writeAll (worktree : Worktree) (objects : ObjectStore) (snapshot : Snapshot) : Worktree :=
  snapshot.foldl (fun worktree (path, file) => worktree.write objects path file) worktree

theorem root_removeAll (paths : List String) : (worktree.removeAll paths).root = worktree.root := by
  induction paths generalizing worktree with
  | nil => rfl
  | cons path rest ih => exact ih

theorem root_writeAll (snapshot : Snapshot) :
    (worktree.writeAll objects snapshot).root = worktree.root := by
  induction snapshot generalizing worktree with
  | nil => rfl
  | cons entry rest ih => exact ih

theorem placeOf_removeAll (paths : List String) :
    (worktree.removeAll paths).placeOf path = worktree.placeOf path := by
  rw [placeOf, placeOf, root_removeAll]

theorem placeOf_writeAll (snapshot : Snapshot) :
    (worktree.writeAll objects snapshot).placeOf path = worktree.placeOf path := by
  rw [placeOf, placeOf, root_writeAll]

theorem find?_removeAll (worktree : Worktree) (paths : List String) (other : Place) :
    (worktree.removeAll paths).files.find? other = worktree.files.find? other ∧
        (∀ path ∈ paths, other ≠ worktree.placeOf path) ∨
      (∃ path ∈ paths, other <+: worktree.placeOf path) ∧
        (worktree.removeAll paths).files.find? other = none := by
  induction paths generalizing worktree with
  | nil => exact .inl ⟨rfl, nofun⟩
  | cons path rest ih =>
    rcases ih (worktree.remove path) with ⟨hsame, hrest⟩ | ⟨⟨later, hlater, habove⟩, hfree⟩
    · rcases worktree.find?_remove path other with ⟨hstep, hne⟩ | ⟨habove, hfree⟩
      · exact .inl ⟨hsame.trans hstep, List.forall_mem_cons.mpr ⟨hne, hrest⟩⟩
      · exact .inr ⟨⟨path, List.mem_cons_self, habove⟩, hsame.trans hfree⟩
    · exact .inr ⟨⟨later, List.mem_cons_of_mem _ hlater, habove⟩, hfree⟩

theorem find?_writeAll (worktree : Worktree) (objects : ObjectStore) (snapshot : Snapshot)
    (other : Place) :
    ((worktree.writeAll objects snapshot).files.find? other = worktree.files.find? other ∧
        ∀ entry ∈ snapshot, other ≠ worktree.placeOf entry.1) ∨
      (∃ entry ∈ snapshot, other = worktree.placeOf entry.1 ∧
        (worktree.writeAll objects snapshot).files.find? other =
          some (entryOf objects entry.2)) ∨
      (∃ entry ∈ snapshot, other <+: worktree.placeOf entry.1 ∧ other ≠ worktree.placeOf entry.1) ∧
        (worktree.writeAll objects snapshot).files.find? other = some .directory := by
  induction snapshot generalizing worktree with
  | nil => exact .inl ⟨rfl, nofun⟩
  | cons entry rest ih =>
    obtain ⟨path, file⟩ := entry
    rcases ih (worktree.write objects path file) with ⟨hsame, hrest⟩ |
      ⟨later, hlater, hplace, hwritten⟩ | ⟨⟨later, hlater, habove⟩, hmade⟩
    · by_cases hself : other = worktree.placeOf path
      · subst hself
        exact .inr (.inl ⟨_, List.mem_cons_self, rfl,
          hsame.trans (worktree.find?_write_self objects path file)⟩)
      · rcases find?_write_of_ne file hself with hstep | ⟨habove, hmade⟩
        · exact .inl ⟨hsame.trans hstep, List.forall_mem_cons.mpr ⟨hself, hrest⟩⟩
        · exact .inr (.inr ⟨⟨_, List.mem_cons_self, habove, hself⟩, hsame.trans hmade⟩)
    · exact .inr (.inl ⟨later, List.mem_cons_of_mem _ hlater, hplace, hwritten⟩)
    · exact .inr (.inr ⟨⟨later, List.mem_cons_of_mem _ hlater, habove⟩, hmade⟩)

/-- The paths that some steps remove. -/
def removed (steps : List (String × WorktreeStep)) : List String :=
  steps.filterMap fun (path, step) =>
    match step with
    | .remove => some path
    | _ => none

/-- The files that some steps write. -/
def written (steps : List (String × WorktreeStep)) : Snapshot :=
  steps.filterMap fun (path, step) =>
    match step with
    | .write file => some (path, file)
    | _ => none

theorem mem_removed_iff {steps : List (String × WorktreeStep)} :
    path ∈ removed steps ↔ (path, .remove) ∈ steps := by
  unfold removed
  rw [List.mem_filterMap]
  constructor
  · intro h
    obtain ⟨⟨other, step⟩, hmem, h⟩ := h
    cases step <;> cases h
    exact hmem
  · exact fun h => ⟨_, h, rfl⟩

theorem mem_written_iff {steps : List (String × WorktreeStep)} :
    (path, file) ∈ written steps ↔ (path, .write file) ∈ steps := by
  unfold written
  rw [List.mem_filterMap]
  constructor
  · intro h
    obtain ⟨⟨other, step⟩, hmem, h⟩ := h
    cases step <;> cases h
    exact hmem
  · exact fun h => ⟨_, h, rfl⟩

/-- A change removes what is to be removed and then writes, if there is no conflict. -/
theorem change_eq (worktree : Worktree) (objects : ObjectStore) (before after : Snapshot) :
    worktree.change objects before after =
      match conflictsOf (worktree.steps objects before after) with
      | [] => .ok ((worktree.removeAll (removed (worktree.steps objects before after))).writeAll
          objects (written (worktree.steps objects before after)))
      | conflicts => .error conflicts.length := by
  unfold change
  dsimp only
  cases conflictsOf (worktree.steps objects before after) with
  | nil =>
    unfold removeAll removed writeAll written
    rw [List.foldl_filterMap, List.foldl_filterMap]
    refine congrArg Except.ok ?_
    congr 1
    · funext worktree entry
      obtain ⟨path, step⟩ := entry
      cases step <;> rfl
    · congr 1
      funext worktree entry
      obtain ⟨path, step⟩ := entry
      cases step <;> rfl
  | cons lost rest => rfl

/-- A change that is made meets no conflict. -/
theorem change_eq_ok (h : worktree.change objects before after = .ok changed) :
    (∀ path step, (path, step) ∈ worktree.steps objects before after →
      ∀ lost, step ≠ .conflict lost) ∧
    changed = (worktree.removeAll (removed (worktree.steps objects before after))).writeAll objects
      (written (worktree.steps objects before after)) := by
  rw [change_eq] at h
  split at h
  next hnone =>
    cases h
    refine ⟨fun path step hmem lost hlost => ?_, rfl⟩
    have hconflict : lost ∈ conflictsOf (worktree.steps objects before after) := by
      unfold conflictsOf
      rw [List.mem_eraseDups, List.mem_filterMap]
      exact ⟨(path, step), hmem, by rw [hlost]⟩
    rw [hnone] at hconflict
    cases hconflict
  next => cases h

/-! ### What the disk refuses -/

theorem refusals_prune (root : Place) (fuel : Nat) : ∀ (files : Files) (place : Place),
    (prune root files fuel place).refusals = files.refusals := by
  induction fuel with
  | zero => exact fun _ _ => rfl
  | succ fuel ih =>
    intro files place
    rw [prune]
    split
    · rfl
    · exact ih _ _

theorem refusals_provideAbove (files : Files) (place : Place) :
    (provideAbove files place).refusals = files.refusals := by
  unfold provideAbove
  generalize List.range place.length = lengths
  induction lengths generalizing files with
  | nil => rfl
  | cons n rest ih =>
    rw [List.foldl_cons, ih]
    split <;> rfl

theorem refusals_removeAll (paths : List String) :
    (worktree.removeAll paths).files.refusals = worktree.files.refusals := by
  induction paths generalizing worktree with
  | nil => rfl
  | cons path rest ih =>
    have hremove : (worktree.remove path).files.refusals = worktree.files.refusals :=
      refusals_prune _ _ _ _
    exact ih.trans hremove

theorem refusals_writeAll (snapshot : Snapshot) :
    (worktree.writeAll objects snapshot).files.refusals = worktree.files.refusals := by
  induction snapshot generalizing worktree with
  | nil => rfl
  | cons entry rest ih =>
    have hwrite : (worktree.write objects entry.1 entry.2).files.refusals =
        worktree.files.refusals := refusals_provideAbove _ _
    exact ih.trans hwrite

/-- What the disk refuses has nothing to do with the working tree. -/
theorem refusals_of_showFiles {repository shown : Repository} {showing : Worktree}
    (h : repository.showFiles worktree after = .ok (shown, showing)) :
    showing.files.refusals = worktree.files.refusals := by
  unfold Repository.showFiles at h
  split at h
  next => cases h
  next =>
    split at h
    next changed hchange =>
      cases h
      obtain ⟨-, rfl⟩ := change_eq_ok hchange
      rw [refusals_writeAll, refusals_removeAll]
    next => cases h

/-- The files of a snapshot, and no others, stand in the working tree. What the repository keeps for
itself is none of them. -/
structure Shows (objects : ObjectStore) (worktree : Worktree) (snapshot : Snapshot) : Prop where
  shown : ∀ entry ∈ snapshot, ∃ found, worktree.entry? entry.1 = some found ∧
    holds objects found entry.2 = true
  nothingElse : ∀ names found, worktree.files.find? (worktree.root ++ names) = some found →
    found.isDirectory = false → names.head? ≠ some Files.repositoryName →
    ∃ entry ∈ snapshot, Snapshot.names entry.1 = names

/-- A file that comes into being is written, or is a conflict. -/
theorem stepAdded_cases (worktree : Worktree) (before : Snapshot) (path : String)
    (new : TreeFile) : worktree.stepAdded before path new = .write new ∨
      ∃ lost, worktree.stepAdded before path new = .conflict lost := by
  have hasks : ∀ (known : Bool) (lost : String),
      (if known then WorktreeStep.write new else .conflict lost) = .write new ∨
        ∃ other, (if known then WorktreeStep.write new else .conflict lost) = .conflict other := by
    intro known lost
    cases known with
    | true => exact .inl rfl
    | false => exact .inr ⟨lost, rfl⟩
  unfold stepAdded
  split
  next above _ => exact hasks _ above
  next =>
    split
    next => exact .inl rfl
    next => exact hasks _ path
    next => exact .inr ⟨path, rfl⟩

theorem mode_of_holds_directory (h : holds objects .directory file = true) :
    file.mode = .submodule := by
  unfold holds at h
  split at h <;> simp_all

/-- A file that stands as it should is removed when it ends. -/
theorem stepDeleted_of_holds {found : Entry} (hfound : worktree.entry? path = some found)
    (hholds : holds objects found file = true) :
    worktree.stepDeleted objects path file = .remove := by
  unfold stepDeleted
  rw [hfound]
  cases found with
  | directory => exact if_pos (mode_of_holds_directory hholds)
  | file content executable => exact if_pos hholds
  | link target => exact if_pos hholds

namespace Shows

/-- What is done for a delta, if it is no conflict. -/
theorem step_eq {delta : Delta} (h : worktree.Shows objects before)
    (hdelta : delta ∈ Delta.between before after)
    (hclear : ∀ lost, worktree.step objects before delta ≠ .conflict lost) :
    worktree.step objects before delta =
      match delta.new with
      | some new => .write new
      | none => .remove := by
  obtain ⟨path, old, new⟩ := delta
  obtain ⟨hold, hnew, hne⟩ := Delta.mem_between_iff.mp hdelta
  cases old with
  | none =>
    cases new with
    | none => exact absurd rfl hne
    | some new =>
      refine (stepAdded_cases worktree before path new).resolve_right fun hconflict => ?_
      obtain ⟨lost, hlost⟩ := hconflict
      exact hclear lost hlost
  | some old =>
    obtain ⟨found, hfound, hholds⟩ := h.shown _ (Snapshot.mem_of_find? hold.symm)
    cases new with
    | none => exact stepDeleted_of_holds hfound hholds
    | some new =>
      show worktree.stepModified objects path old new = .write new
      unfold stepModified
      rw [hfound]
      exact if_pos (by rw [hholds, Bool.true_or])

section

variable (h : worktree.Shows objects before)
  (hclear : ∀ path step, (path, step) ∈ worktree.steps objects before after →
    ∀ lost, step ≠ .conflict lost)

include h hclear

/-- The steps of a change without a conflict are those that the deltas ask for. -/
theorem mem_steps_iff {step : WorktreeStep} :
    (path, step) ∈ worktree.steps objects before after ↔
      before.find? path ≠ after.find? path ∧
        step = match after.find? path with
          | some new => .write new
          | none => .remove := by
  have hstep : ∀ delta ∈ Delta.between before after,
      worktree.step objects before delta = match delta.new with
        | some new => .write new
        | none => .remove := fun delta hdelta =>
    h.step_eq hdelta (hclear delta.path _ (List.mem_map.mpr ⟨delta, hdelta, rfl⟩))
  unfold steps
  rw [List.mem_map]
  constructor
  · intro hmem
    obtain ⟨delta, hdelta, heq⟩ := hmem
    obtain ⟨hold, hnew, hne⟩ := Delta.mem_between_iff.mp hdelta
    obtain ⟨rfl, rfl⟩ := Prod.mk.inj heq
    rw [← hold, ← hnew]
    exact ⟨hne, hstep delta hdelta⟩
  · intro hmem
    obtain ⟨hne, rfl⟩ := hmem
    obtain ⟨delta, hdelta, rfl⟩ := Delta.exists_mem_between hne
    refine ⟨delta, hdelta, ?_⟩
    rw [hstep delta hdelta, (Delta.mem_between_iff.mp hdelta).2.1]

theorem mem_removed_steps_iff :
    path ∈ removed (worktree.steps objects before after) ↔
      before.find? path ≠ none ∧ after.find? path = none := by
  rw [mem_removed_iff, h.mem_steps_iff hclear]
  cases after.find? path <;> simp

theorem mem_written_steps_iff :
    (path, file) ∈ written (worktree.steps objects before after) ↔
      after.find? path = some file ∧ before.find? path ≠ some file := by
  rw [mem_written_iff, h.mem_steps_iff hclear]
  cases hnew : after.find? path with
  | none => simp
  | some new =>
    simp only [ne_eq, WorktreeStep.write.injEq, Option.some.injEq]
    constructor
    · intro hboth
      obtain ⟨hne, rfl⟩ := hboth
      exact ⟨rfl, hne⟩
    · intro hboth
      obtain ⟨rfl, hne⟩ := hboth
      exact ⟨hne, rfl⟩

end

/-! ### What a change leaves behind -/

section

variable {paths : List String} {files : Snapshot} {entry : String × TreeFile}
  (hbefore : before.Proper objects) (hafter : after.Proper objects)
  (hremoved : ∀ path ∈ paths, before.find? path ≠ none ∧ after.find? path = none)
  (hwritten : ∀ entry ∈ files, after.find? entry.1 = some entry.2 ∧ before.find? entry.1 ≠ some entry.2)

include hafter hwritten

/-- A file that is written stands where it should. -/
theorem entry?_written (h : entry ∈ files) :
    Worktree.entry? (worktree.writeAll objects files) entry.1 = some (entryOf objects entry.2) := by
  have hmem : ∀ other ∈ files, other ∈ after := fun other hother =>
    Snapshot.mem_of_find? (hwritten other hother).1
  rcases find?_writeAll worktree objects files (worktree.placeOf entry.1) with ⟨-, hnone⟩ |
    ⟨other, hother, hplace, hfound⟩ | ⟨⟨other, hother, habove, hne⟩, -⟩
  · exact absurd rfl (hnone entry h)
  · have heq : entry = other := hafter.eq_of_path_eq (hmem entry h) (hmem other hother)
      (placeOf_injective _ hplace)
    unfold Worktree.entry?
    rw [placeOf_writeAll, hfound, heq]
  · have heq : entry.1 = other.1 := congrArg Prod.fst
      (hafter.eq_of_inTheWay (hmem entry h) (hmem other hother) (inTheWay_of_placeOf habove))
    exact absurd (congrArg _ heq) hne

include hbefore hremoved

/-- A file that both snapshots have is left as it is. -/
theorem entry?_kept (hold : entry ∈ before) (hnew : entry ∈ after) :
    Worktree.entry? ((worktree.removeAll paths).writeAll objects files) entry.1 =
      worktree.entry? entry.1 := by
  have hfound := hbefore.find?_eq_some_iff.mpr hold
  have hkept : Worktree.entry? (worktree.removeAll paths) entry.1 = worktree.entry? entry.1 := by
    unfold Worktree.entry?
    rw [placeOf_removeAll]
    rcases find?_removeAll worktree paths (worktree.placeOf entry.1) with ⟨hsame, -⟩ |
      ⟨⟨path, hpath, habove⟩, -⟩
    · exact hsame
    · obtain ⟨hsome, hnone⟩ := hremoved path hpath
      obtain ⟨file, hfile⟩ := Option.ne_none_iff_exists'.mp hsome
      have heq : entry.1 = path := congrArg Prod.fst
        (hbefore.eq_of_inTheWay hold (Snapshot.mem_of_find? hfile) (inTheWay_of_placeOf habove))
      rw [← heq, hafter.find?_eq_some_iff.mpr hnew] at hnone
      cases hnone
  refine Eq.trans ?_ hkept
  unfold Worktree.entry?
  rw [placeOf_writeAll]
  rcases find?_writeAll (worktree.removeAll paths) objects files
      ((worktree.removeAll paths).placeOf entry.1) with ⟨hsame, -⟩ |
    ⟨other, hother, hplace, -⟩ | ⟨⟨other, hother, habove, hne⟩, -⟩
  · exact hsame
  · obtain ⟨hafter', hbefore'⟩ := hwritten other hother
    have heq : entry = other := hafter.eq_of_path_eq hnew (Snapshot.mem_of_find? hafter')
      (placeOf_injective _ hplace)
    rw [← heq] at hbefore'
    exact absurd hfound hbefore'
  · have heq : entry.1 = other.1 := congrArg Prod.fst (hafter.eq_of_inTheWay hnew
      (Snapshot.mem_of_find? (hwritten other hother).1) (inTheWay_of_placeOf habove))
    exact absurd (congrArg _ heq) hne

omit hafter hremoved in
/-- A file stands nowhere but at the paths of the new snapshot. -/
theorem exists_path_changed {names : List String} {found : Entry} (h : worktree.Shows objects before)
    (hends : ∀ path, before.find? path ≠ none → after.find? path = none → path ∈ paths)
    (hfound : ((worktree.removeAll paths).writeAll objects files).files.find?
      (worktree.root ++ names) = some found)
    (hfile : found.isDirectory = false) (hown : names.head? ≠ some Files.repositoryName) :
    ∃ entry ∈ after, Snapshot.names entry.1 = names := by
  rcases find?_writeAll (worktree.removeAll paths) objects files (worktree.root ++ names) with
    ⟨hsame, -⟩ | ⟨other, hother, hplace, -⟩ | ⟨-, hmade⟩
  · rw [hfound] at hsame
    rcases find?_removeAll worktree paths (worktree.root ++ names) with ⟨hkept, hnone⟩ | ⟨-, hfree⟩
    · obtain ⟨entry, hentry, hnames⟩ :=
        h.nothingElse names found (hkept.symm.trans hsame.symm) hfile hown
      -- A file that was there before, and was not removed, is there after.
      have hstays : after.find? entry.1 ≠ none := by
        intro hend
        have hbegan : before.find? entry.1 ≠ none := by
          rw [hbefore.find?_eq_some_iff.mpr hentry]
          exact Option.some_ne_none _
        exact hnone _ (hends _ hbegan hend) (by rw [placeOf, hnames])
      obtain ⟨file, hafter'⟩ := Option.ne_none_iff_exists'.mp hstays
      exact ⟨_, Snapshot.mem_of_find? hafter', hnames⟩
    · rw [hfree] at hsame
      cases hsame
  · rw [placeOf_removeAll] at hplace
    exact ⟨other, Snapshot.mem_of_find? (hwritten other hother).1,
      (List.append_cancel_left hplace).symm⟩
  · rw [hfound] at hmade
    cases hmade
    cases hfile

end

/-- **The files follow**: a change without a conflict, from a tree that shows the one snapshot, leads
to a tree that shows the other one. -/
theorem of_change (h : worktree.Shows objects before) (hbefore : before.Proper objects)
    (hafter : after.Proper objects) (hchange : worktree.change objects before after = .ok changed) :
    changed.Shows objects after ∧ changed.root = worktree.root := by
  obtain ⟨hclear, rfl⟩ := change_eq_ok hchange
  have hremoved : ∀ path, path ∈ removed (worktree.steps objects before after) ↔
      before.find? path ≠ none ∧ after.find? path = none := fun _ =>
    h.mem_removed_steps_iff hclear
  have hwritten : ∀ entry, entry ∈ written (worktree.steps objects before after) ↔
      after.find? entry.1 = some entry.2 ∧ before.find? entry.1 ≠ some entry.2 := fun _ =>
    h.mem_written_steps_iff hclear
  have hroot : ((worktree.removeAll (removed (worktree.steps objects before after))).writeAll
      objects (written (worktree.steps objects before after))).root = worktree.root :=
    (root_writeAll _).trans (root_removeAll _)
  refine ⟨⟨fun entry hentry => ?_, fun names found hfound hfile hown => ?_⟩, hroot⟩
  · have hnew := hafter.find?_eq_some_iff.mpr hentry
    by_cases hsame : before.find? entry.1 = some entry.2
    · have hold := Snapshot.mem_of_find? hsame
      rw [entry?_kept hbefore hafter (fun path => (hremoved path).mp)
        (fun entry => (hwritten entry).mp) hold hentry]
      exact h.shown entry hold
    · exact ⟨_, entry?_written hafter (fun entry => (hwritten entry).mp)
        ((hwritten entry).mpr ⟨hnew, hsame⟩), hafter.held entry hentry⟩
  · rw [hroot] at hfound
    exact exists_path_changed hbefore (fun entry => (hwritten entry).mp) h
      (fun path hbegan hend => (hremoved path).mpr ⟨hbegan, hend⟩) hfound hfile hown

/-- **Files and index follow**: where a repository brings its working tree from the files of `HEAD`
to others, the tree shows these and the index has them. -/
theorem of_showFiles {repository shown : Repository} {showing : Worktree}
    (h : worktree.Shows repository.objects before) (hindex : repository.index = some before)
    (hhead : ∀ found, repository.headSnapshot = .ok found → found = before)
    (hbefore : before.Proper repository.objects)
    (hafter : after.Proper repository.objects) (hsorted : after.Pairwise fun a b => a.1 ≤ b.1)
    (hshow : repository.showFiles worktree after = .ok (shown, showing)) :
    shown = { repository with index := some after } ∧
      showing.Shows repository.objects after ∧ showing.root = worktree.root := by
  unfold Repository.showFiles Repository.baseline at hshow
  rw [hindex] at hshow
  dsimp only at hshow
  split at hshow
  next => cases hshow
  next found hfound =>
    cases hhead found hfound
    split at hshow
    next showing' hchange =>
      cases hshow
      rw [Option.getD_some, Repository.sorted_indexAfter hbefore hafter hsorted]
      exact ⟨rfl, h.of_change hbefore hafter hchange⟩
    next => cases hshow

end Shows

end Worktree

end CommitReports.Git
