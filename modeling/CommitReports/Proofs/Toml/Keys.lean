import CommitReports.Toml.Document
import Mathlib.Data.List.Basic
import Mathlib.Data.List.Nodup

/-!
# The keys of a document

Each key stands once in the root table of a document (`distinct_of_parse?`). Every line
adds to the table in one of three ways: it puts a new key at the end, it replaces the
value of a key in its place, or it takes a key away and puts it at the end again; none of
these gives a key twice.

So a key has the value that stands beside it, wherever that is (`lookup_eq_some_iff`).
-/

namespace CommitReports.Toml

/-- Each key stands once. -/
def Distinct {α : Type} (entries : List (String × α)) : Prop := (entries.map (·.1)).Nodup

/-! ## Keys and values -/

section Lookup

variable {α : Type} {entries : List (String × α)} {key : String} {value : α}

/-- Among distinct keys, one has the value that stands beside it. -/
theorem lookup_eq_some_iff (h : Distinct entries) :
    entries.lookup key = some value ↔ (key, value) ∈ entries := by
  induction entries with
  | nil => simp
  | cons entry rest ih =>
    obtain ⟨k, v⟩ := entry
    obtain ⟨hfresh, hrest⟩ := List.nodup_cons.mp h
    by_cases hk : key = k
    · subst hk
      have hnot : (key, value) ∉ rest := fun hmem => hfresh (List.mem_map.mpr ⟨_, hmem, rfl⟩)
      rw [List.lookup_cons_self, List.mem_cons, or_iff_left hnot, Prod.mk.injEq, Option.some.injEq]
      exact ⟨fun h => ⟨rfl, h.symm⟩, fun h => h.2.symm⟩
    · have hne : (key == k) = false := by simpa using hk
      rw [List.lookup_cons, hne, ih hrest, List.mem_cons, Prod.mk.injEq]
      exact ⟨.inr, fun h => h.resolve_left fun h => hk h.1⟩

theorem lookup_eq_none_iff : entries.lookup key = none ↔ ∀ value, (key, value) ∉ entries := by
  rw [List.lookup_eq_none_iff]
  constructor
  · intro h value hmem
    simpa using h _ hmem
  · rintro h ⟨k, v⟩ hmem
    have hne : k ≠ key := fun hk => h v (hk ▸ hmem)
    simpa [bne_iff_ne] using Ne.symm hne

end Lookup

/-! ## What keeps keys distinct -/

variable {entries after : Entries} {key : String} {value : Value}

theorem Distinct.concat (h : Distinct entries) (value : Value) (hkey : entries.lookup key = none) :
    Distinct (entries ++ [(key, value)]) := by
  unfold Distinct
  rw [List.map_append, List.nodup_append]
  refine ⟨h, List.nodup_singleton key, ?_⟩
  rintro k hk _ hmem rfl
  rw [List.map_singleton, List.mem_singleton] at hmem
  subst hmem
  obtain ⟨⟨k, v⟩, hentry, rfl⟩ := List.mem_map.mp hk
  exact lookup_eq_none_iff.mp hkey v hentry

theorem keys_replaceEntry (key : String) (value : Value) (entries : Entries) :
    (replaceEntry key value entries).map (·.1) = entries.map (·.1) := by
  induction entries with
  | nil => rfl
  | cons entry rest ih =>
    obtain ⟨k, v⟩ := entry
    rw [replaceEntry]
    split
    next => rfl
    next => rw [List.map_cons, List.map_cons, ih]

theorem Distinct.replaceEntry (h : Distinct entries) (key : String) (value : Value) :
    Distinct (replaceEntry key value entries) := by
  unfold Distinct
  rwa [keys_replaceEntry]

theorem Distinct.moveToEnd (h : Distinct entries) (key : String) (value : Value) :
    Distinct (entries.filter (·.1 != key) ++ [(key, value)]) := by
  refine Distinct.concat ?_ value ?_
  · exact List.Nodup.sublist (List.filter_sublist.map _) h
  · rw [lookup_eq_none_iff]
    intro value hmem
    simpa using (List.mem_filter.mp hmem).2

/-! ## Lines -/

/-- What keeps the keys of the table distinct that it acts on keeps those of the root distinct,
wherever that table is. -/
theorem distinct_within {step origin : Origin} {act : Origin → Entries → Option Entries}
    {path : List String} (hact : ∀ origin entries after, Distinct entries →
      act origin entries = some after → Distinct after)
    (h : Distinct entries) (hwithin : within step act path origin entries = some after) :
    Distinct after := by
  cases path with
  | nil =>
    rw [within] at hwithin
    exact hact _ _ _ h hwithin
  | cons key path =>
    rw [within] at hwithin
    split at hwithin
    next hkey =>
      obtain ⟨sub, -, rfl⟩ := Option.map_eq_some_iff.mp hwithin
      exact h.concat _ hkey
    next =>
      split at hwithin
      · cases hwithin
      · obtain ⟨sub, -, rfl⟩ := Option.map_eq_some_iff.mp hwithin
        exact h.replaceEntry _ _
    next =>
      split at hwithin
      · cases hwithin
      · obtain ⟨sub, -, rfl⟩ := Option.map_eq_some_iff.mp hwithin
        exact h.replaceEntry _ _
    next => cases hwithin

theorem distinct_addEntry {path : List String} (h : Distinct entries)
    (hadd : addEntry path key value entries = some after) : Distinct after := by
  refine distinct_within (fun origin entries after h hact => ?_) h hadd
  split at hact
  · cases hact
  split at hact
  · cases hact
  next hkey =>
    cases hact
    exact h.concat value (Option.not_isSome_iff_eq_none.mp hkey)

theorem distinct_addLine {opened path : List String} (h : Distinct entries)
    (hadd : addLine opened path key value entries = some after) : Distinct after :=
  distinct_within (fun _ _ _ h hact => distinct_addEntry h hact) h hadd

theorem distinct_openTable {path : List String} (h : Distinct entries)
    (hopen : openTable path key entries = some after) : Distinct after := by
  refine distinct_within (fun origin entries after h hact => ?_) h hopen
  split at hact
  next hkey =>
    cases hact
    exact h.concat _ hkey
  next =>
    cases hact
    exact h.moveToEnd key _
  next => cases hact

theorem distinct_openElement {path : List String} (h : Distinct entries)
    (hopen : openElement path key entries = some after) : Distinct after := by
  refine distinct_within (fun origin entries after h hact => ?_) h hopen
  split at hact
  next hkey =>
    cases hact
    exact h.concat _ hkey
  next =>
    cases hact
    exact h.replaceEntry key _
  next => cases hact

theorem distinct_readLine {draft next : Draft} {cs rest : List Char} (h : Distinct draft.root)
    (hread : readLine draft cs = some (next, rest)) : Distinct next.root := by
  unfold readLine at hread
  split at hread
  next =>
    split at hread
    next =>
      obtain ⟨root, hroot, hnext⟩ := Option.map_eq_some_iff.mp hread
      cases hnext
      exact distinct_openElement h hroot
    next => cases hread
  next =>
    split at hread
    next =>
      obtain ⟨root, hroot, hnext⟩ := Option.map_eq_some_iff.mp hread
      cases hnext
      exact distinct_openTable h hroot
    next => cases hread
  next =>
    split at hread
    next =>
      obtain ⟨root, hroot, hnext⟩ := Option.map_eq_some_iff.mp hread
      cases hnext
      exact distinct_addLine h hroot
    next => cases hread

/-- The lines of a document keep the keys distinct, one after the other. -/
theorem distinct_readLines {draft : Draft} {cs : List Char} (h : Distinct draft.root)
    (hread : readLines draft cs = some entries) : Distinct entries := by
  have hline : ∀ {draft next : Draft} {cs rest : List Char}, Distinct draft.root →
      (if isIdleLine cs then some (draft, cs) else readLine draft cs) = some (next, rest) →
        Distinct next.root := by
    intro draft next cs rest h hnext
    split at hnext
    · cases hnext
      exact h
    · exact distinct_readLine h hnext
  fun_induction readLines draft cs with
  | case1 => cases hread
  | case2 => cases hread
  | case3 draft cs start line next rest hnext =>
    cases hread
    exact hline h hnext
  | case4 draft cs start line next rest hnext _ _ _ _ ih => exact ih (hline h hnext) hread
  | case5 => cases hread

/-- **Each key stands once in the root table of a document.** -/
theorem distinct_of_parse? {text : String} (h : parse? text = some entries) : Distinct entries := by
  unfold parse? at h
  have hempty : Distinct ({} : Draft).root := List.nodup_nil
  split at h
  next => exact distinct_readLines hempty h
  next => exact distinct_readLines hempty h

end CommitReports.Toml
