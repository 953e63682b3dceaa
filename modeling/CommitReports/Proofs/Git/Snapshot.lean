import CommitReports.Git.WorkingTree
import CommitReports.Proofs.Git.RefName
import Mathlib.Data.List.Nodup
import Mathlib.Data.List.Pairwise
import Mathlib.Data.String.Basic

/-!
# Snapshots and what lies between two of them

A snapshot that can be shown has files that do not stand in each other's way, and the
store has the content of each (`Snapshot.Proper`). In such a snapshot a path has one
file, so the deltas between two of them are the paths at which they differ
(`Delta.mem_between_iff`).

The index is brought from one snapshot to another by the same deltas as the working
tree. A file that is put takes away all that stands in its way. In the end nothing is
left but the files of the new snapshot (`mem_of_mem_indexAfter`), and none of them is
lost, for none stands in the way of another one (`mem_indexAfter`): the index is the new
snapshot again (`sorted_indexAfter`).
-/

namespace CommitReports

namespace Git

namespace Snapshot

variable {objects : ObjectStore} {snapshot : Snapshot} {path other : String} {file : TreeFile}
  {entry : String × TreeFile}

/-! ## Names -/

theorem names_ne_nil (path : String) : names path ≠ [] := by
  simp [names, Path.segments_ne_nil]

theorem names_injective : Function.Injective names := by
  intro path other h
  have hsegments : Path.segments path.toList = Path.segments other.toList :=
    List.map_injective_iff.mpr (fun _ _ => String.ofList_inj.mp) h
  rw [← String.toList_inj, ← Path.unsegments_segments path.toList, hsegments,
    Path.unsegments_segments]

/-- A path whose names go on after those of another one leads through it, or is it. -/
theorem inTheWay_of_prefix (h : names other <+: names path) : inTheWay path other = true := by
  obtain ⟨more, hmore⟩ := h
  rw [inTheWay, Bool.or_assoc, Bool.or_eq_true, Bool.or_eq_true, beq_iff_eq]
  by_cases hnil : more = []
  · rw [hnil, List.append_nil] at hmore
    exact .inl (names_injective hmore).symm
  · refine .inr (.inl ?_)
    obtain ⟨segments, rest, hsegments, hother, rfl⟩ := List.map_eq_append_iff.mp hmore.symm
    have hother : segments = Path.segments other.toList :=
      List.map_injective_iff.mpr (fun _ _ => String.ofList_inj.mp) hother
    have hrest : rest ≠ [] := by
      rintro rfl
      exact hnil rfl
    rw [isBelow, List.isPrefixOf_iff_prefix, ← Path.unsegments_segments path.toList, hsegments,
      Path.unsegments_append (hother ▸ Path.segments_ne_nil _) hrest, hother,
      Path.unsegments_segments, String.toList_append]
    exact ⟨Path.unsegments rest, by simp⟩

theorem inTheWay_comm (path other : String) : inTheWay path other = inTheWay other path := by
  rw [inTheWay, inTheWay, Bool.or_assoc, Bool.or_assoc, Bool.or_comm (isBelow path other),
    Bool.beq_comm]

@[simp] theorem inTheWay_self (path : String) : inTheWay path path = true := by
  simp [inTheWay]

/-! ## Snapshots that can be shown -/

/-- Files of which none stands in the way of another one, each with its content in the store. -/
structure Proper (objects : ObjectStore) (snapshot : Snapshot) : Prop where
  apart : snapshot.Pairwise fun a b => inTheWay a.1 b.1 = false
  held : ∀ entry ∈ snapshot,
    Worktree.holds objects (Worktree.entryOf objects entry.2) entry.2 = true

namespace Proper

/-- Only a file itself stands in its way. -/
theorem eq_of_inTheWay {a b : String × TreeFile} (h : snapshot.Proper objects)
    (ha : a ∈ snapshot) (hb : b ∈ snapshot) (hway : inTheWay a.1 b.1 = true) : a = b := by
  have : Std.Symm fun a b : String × TreeFile => inTheWay a.1 b.1 = false :=
    ⟨fun a b hab => by rwa [inTheWay_comm]⟩
  refine Decidable.byContradiction fun hne => ?_
  rw [h.apart.forall ha hb hne] at hway
  cases hway

theorem eq_of_path_eq {a b : String × TreeFile} (h : snapshot.Proper objects)
    (ha : a ∈ snapshot) (hb : b ∈ snapshot) (hpath : a.1 = b.1) : a = b :=
  h.eq_of_inTheWay ha hb (by rw [hpath, inTheWay_self])

theorem nodup (h : snapshot.Proper objects) : (snapshot.map (·.1)).Nodup := by
  rw [List.Nodup, List.pairwise_map]
  refine h.apart.imp fun {a b} hapart hpath => ?_
  rw [hpath, inTheWay_self] at hapart
  cases hapart

end Proper

theorem mem_of_find? (h : snapshot.find? path = some file) : (path, file) ∈ snapshot := by
  obtain ⟨front, back, rfl, -⟩ := List.lookup_eq_some_iff.mp h
  simp

theorem exists_of_mem_getD {files : Option Snapshot} {entry : String × TreeFile}
    (h : entry ∈ files.getD []) : ∃ snapshot, files = some snapshot ∧ entry ∈ snapshot := by
  cases files with
  | none => cases h
  | some snapshot => exact ⟨snapshot, rfl, h⟩

theorem Proper.find?_eq_some_iff (h : snapshot.Proper objects) :
    snapshot.find? path = some file ↔ (path, file) ∈ snapshot := by
  refine ⟨mem_of_find?, fun hmem => ?_⟩
  cases hfind : snapshot.find? path with
  | some found => rw [(Prod.mk.inj (h.eq_of_path_eq (mem_of_find? hfind) hmem rfl)).2]
  | none =>
    have hkey := List.lookup_eq_none_iff.mp hfind _ hmem
    simp at hkey

theorem pairwise_sorted (snapshot : Snapshot) : snapshot.sorted.Pairwise fun a b => a.1 ≤ b.1 := by
  have htrans : ∀ a b c : String × TreeFile, decide (a.1 ≤ b.1) = true → decide (b.1 ≤ c.1) = true →
      decide (a.1 ≤ c.1) = true := fun _ _ _ hab hbc =>
    decide_eq_true (le_trans (of_decide_eq_true hab) (of_decide_eq_true hbc))
  have htotal : ∀ a b : String × TreeFile, (decide (a.1 ≤ b.1) || decide (b.1 ≤ a.1)) = true :=
    fun a b => by simpa using le_total a.1 b.1
  exact (List.pairwise_mergeSort htrans htotal _).imp of_decide_eq_true

end Snapshot

/-! ## Deltas -/

namespace Delta

variable {before after : Snapshot} {delta : Delta}

/-- There is a delta for each path that is not the same in both. -/
theorem mem_between_iff : delta ∈ between before after ↔
    delta.old = before.find? delta.path ∧ delta.new = after.find? delta.path ∧
      delta.old ≠ delta.new := by
  obtain ⟨path, old, new⟩ := delta
  simp only [between, List.mem_filterMap]
  constructor
  · rintro ⟨path', -, h⟩
    split at h
    · cases h
    next hne =>
      cases h
      exact ⟨rfl, rfl, hne⟩
  · rintro ⟨rfl, rfl, hne⟩
    refine ⟨path, ?_, if_neg hne⟩
    have hmem : ∀ {snapshot : Snapshot} {file : TreeFile}, snapshot.find? path = some file →
        path ∈ snapshot.map (·.1) := fun hfind =>
      List.mem_map.mpr ⟨_, Snapshot.mem_of_find? hfind, rfl⟩
    rw [paths, List.mem_mergeSort, List.mem_eraseDups, List.map_append, List.mem_append]
    -- A path that neither has would be the same in both.
    cases hold : before.find? path with
    | some file => exact .inl (hmem hold)
    | none =>
      cases hnew : after.find? path with
      | some file => exact .inr (hmem hnew)
      | none => exact absurd (hold.trans hnew.symm) hne

/-- Nothing lies between a snapshot and itself. -/
theorem between_self (snapshot : Snapshot) : between snapshot snapshot = [] :=
  List.eq_nil_iff_forall_not_mem.mpr fun _ hdelta => by
    obtain ⟨hold, hnew, hne⟩ := mem_between_iff.mp hdelta
    exact hne (hold.trans hnew.symm)

theorem exists_mem_between {path : String} (h : before.find? path ≠ after.find? path) :
    ∃ delta ∈ between before after, delta.path = path :=
  ⟨⟨path, before.find? path, after.find? path⟩, mem_between_iff.mpr ⟨rfl, rfl, h⟩, rfl⟩

end Delta

/-! ## The index after a change -/

namespace Repository

open Snapshot

variable {objects : ObjectStore} {index before after : Snapshot} {deltas : List Delta}
  {delta : Delta} {path : String} {file : TreeFile} {entry : String × TreeFile}

/-- The index after one delta. -/
def indexStep (index : Snapshot) (delta : Delta) : Snapshot :=
  match delta.new with
  | some new => index.put delta.path new
  | none => index.erase delta.path

/-- The deltas are applied to the index one after another. -/
theorem indexAfter_eq : indexAfter index before after =
    (Delta.between before after).foldl indexStep index := rfl

theorem mem_indexStep : entry ∈ indexStep index delta ↔
    entry.1 = delta.path ∧ delta.new = some entry.2 ∨
      entry ∈ index ∧ entry.1 ≠ delta.path ∧
        (delta.new.isSome → inTheWay entry.1 delta.path = false) := by
  obtain ⟨path, old, new⟩ := delta
  obtain ⟨key, value⟩ := entry
  cases new with
  | none => simp [indexStep, erase]
  | some new =>
    have hne : inTheWay key path = false → key ≠ path := by
      rintro hway rfl
      rw [inTheWay_self] at hway
      cases hway
    simp only [indexStep, put, List.mem_cons, List.mem_filter, Prod.mk.injEq, Bool.not_eq_true',
      Option.some.injEq, Option.isSome_some, forall_const]
    exact or_congr (and_congr_right fun _ => eq_comm)
      (and_congr_right fun _ => ⟨fun hway => ⟨hne hway, hway⟩, And.right⟩)

theorem nodup_indexStep (h : (index.map (·.1)).Nodup) :
    ((indexStep index delta).map (·.1)).Nodup := by
  have hfilter : ∀ keep : String × TreeFile → Bool, ((index.filter keep).map (·.1)).Nodup :=
    fun keep => h.sublist (List.filter_sublist.map _)
  unfold indexStep
  split
  · rw [put, List.map_cons, List.nodup_cons, List.mem_map]
    refine ⟨?_, hfilter _⟩
    rintro ⟨entry, hmem, hpath⟩
    have hway := (List.mem_filter.mp hmem).2
    rw [hpath, inTheWay_self] at hway
    cases hway
  · exact hfilter _

/-- What is in the index after some deltas was put there by one of them, or none was about it. -/
theorem of_mem_foldl_indexStep (h : entry ∈ deltas.foldl indexStep index) :
    (∃ delta ∈ deltas, delta.path = entry.1 ∧ delta.new = some entry.2) ∨
      entry ∈ index ∧ ∀ delta ∈ deltas, delta.path ≠ entry.1 := by
  induction deltas generalizing index with
  | nil => exact .inr ⟨h, by simp⟩
  | cons delta rest ih =>
    rcases ih h with ⟨later, hmem, hput⟩ | ⟨hstep, hrest⟩
    · exact .inl ⟨later, List.mem_cons_of_mem _ hmem, hput⟩
    · rcases mem_indexStep.mp hstep with ⟨hpath, hnew⟩ | ⟨hmem, hne, -⟩
      · exact .inl ⟨delta, List.mem_cons_self, hpath.symm, hnew⟩
      · exact .inr ⟨hmem, List.forall_mem_cons.mpr ⟨hne.symm, hrest⟩⟩

/-- A file that no delta is in the way of is in the index after some deltas, if it was there or
one of them put it there. -/
theorem mem_foldl_indexStep
    (hclear : ∀ delta ∈ deltas, delta.path ≠ entry.1 →
      delta.new.isSome → inTheWay entry.1 delta.path = false)
    (hown : ∀ delta ∈ deltas, delta.path = entry.1 → delta.new = some entry.2)
    (h : entry ∈ index ∨ ∃ delta ∈ deltas, delta.path = entry.1) :
    entry ∈ deltas.foldl indexStep index := by
  induction deltas generalizing index with
  | nil => exact h.resolve_right (by simp)
  | cons delta rest ih =>
    rw [List.forall_mem_cons] at hclear hown
    refine ih hclear.2 hown.2 ?_
    by_cases hpath : delta.path = entry.1
    · exact .inl (mem_indexStep.mpr (.inl ⟨hpath.symm, hown.1 hpath⟩))
    · rcases h with hmem | hdelta
      · exact .inl (mem_indexStep.mpr (.inr ⟨hmem, Ne.symm hpath, hclear.1 hpath⟩))
      · rw [List.exists_mem_cons_iff] at hdelta
        exact .inr (hdelta.resolve_left hpath)

theorem nodup_foldl_indexStep (h : (index.map (·.1)).Nodup) :
    ((deltas.foldl indexStep index).map (·.1)).Nodup := by
  induction deltas generalizing index with
  | nil => exact h
  | cons delta rest ih => exact ih (nodup_indexStep h)

/-- Nothing but the files of the new snapshot is left. -/
theorem mem_of_mem_indexAfter (hbefore : before.Proper objects)
    (h : entry ∈ indexAfter before before after) : entry ∈ after := by
  rcases of_mem_foldl_indexStep h with ⟨delta, hdelta, hpath, hnew⟩ | ⟨hmem, hnone⟩
  · obtain ⟨-, hfind, -⟩ := Delta.mem_between_iff.mp hdelta
    rw [hpath, hnew] at hfind
    exact mem_of_find? hfind.symm
  · have hsame : before.find? entry.1 = after.find? entry.1 :=
      Decidable.byContradiction fun hne => by
        obtain ⟨delta, hdelta, hpath⟩ := Delta.exists_mem_between hne
        exact hnone delta hdelta hpath
    rw [hbefore.find?_eq_some_iff.mpr hmem] at hsame
    exact mem_of_find? hsame.symm

/-- No file of the new snapshot is lost. -/
theorem mem_indexAfter (hafter : after.Proper objects) (h : entry ∈ after) :
    entry ∈ indexAfter before before after := by
  have hfind : after.find? entry.1 = some entry.2 := hafter.find?_eq_some_iff.mpr h
  rw [indexAfter_eq]
  refine mem_foldl_indexStep (fun delta hdelta hne hsome => ?_) (fun delta hdelta hpath => ?_) ?_
  · obtain ⟨-, hnew, -⟩ := Delta.mem_between_iff.mp hdelta
    obtain ⟨new, hsome⟩ := Option.isSome_iff_exists.mp hsome
    have hput : (delta.path, new) ∈ after := mem_of_find? (hnew.symm.trans hsome)
    rw [← Bool.not_eq_true]
    exact fun hway => hne (congrArg Prod.fst (hafter.eq_of_inTheWay h hput hway)).symm
  · rw [(Delta.mem_between_iff.mp hdelta).2.1, hpath, hfind]
  · by_cases hsame : before.find? entry.1 = after.find? entry.1
    · exact .inl (mem_of_find? (hsame.trans hfind))
    · exact .inr (Delta.exists_mem_between hsame)

/-- **The index follows**: from the files of one snapshot the deltas lead to those of the other. -/
theorem sorted_indexAfter (hbefore : before.Proper objects) (hafter : after.Proper objects)
    (hsorted : after.Pairwise fun a b => a.1 ≤ b.1) :
    (indexAfter before before after).sorted = after := by
  have hnodup : ∀ {snapshot : Snapshot}, (snapshot.map (·.1)).Nodup → snapshot.Nodup :=
    List.Nodup.of_map _
  have hperm : (indexAfter before before after).Perm after :=
    (List.perm_ext_iff_of_nodup (hnodup (nodup_foldl_indexStep hbefore.nodup))
      (hnodup hafter.nodup)).mpr fun entry =>
        ⟨mem_of_mem_indexAfter hbefore, mem_indexAfter hafter⟩
  refine List.Perm.eq_of_pairwise (fun a b ha hb hle hge => ?_) (pairwise_sorted _) hsorted
    ((List.mergeSort_perm _ _).trans hperm)
  exact hafter.eq_of_path_eq (hperm.mem_iff.mp ((List.mergeSort_perm _ _).mem_iff.mp ha)) hb
    (le_antisymm hle hge)

end Repository

end Git

end CommitReports
