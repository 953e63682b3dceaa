/-!
# Heaps

A binary heap in an array: no entry is due before the one at half its position.
Of several entries that are due at once, the position decides. `push` adds an
entry and `pop?` takes out the one that is due first; neither gains or loses any
other (`push_perm`, `pop?_perm`).
-/

namespace CommitReports.Heap

variable {α : Type} (before : α → α → Bool)

/-! ## Sifting -/

/-- The position above another one. -/
def parent (i : Nat) : Nat := (i - 1) / 2

/-- Moves the entry at a position up, as long as it is due before the one above it. -/
def siftUp (entries : Array α) (i : Nat) : Array α :=
  if h : 0 < i ∧ i < entries.size then
    have above : parent i < entries.size := by simp only [parent]; omega
    if before entries[i] entries[parent i] then
      siftUp (entries.swap i (parent i) h.2 above) (parent i)
    else entries
  else entries
  termination_by i
  decreasing_by simp only [parent]; omega

/-- The position of the entry that is due first of the two below a position; the left one if
neither is due before the other. -/
def firstBelow (entries : Array α) (i : Nat) (h : 2 * i + 1 < entries.size) : Nat :=
  if h' : 2 * i + 2 < entries.size then
    if before entries[2 * i + 2] entries[2 * i + 1] then 2 * i + 2 else 2 * i + 1
  else 2 * i + 1

theorem firstBelow_lt (entries : Array α) (i : Nat) (h : 2 * i + 1 < entries.size) :
    firstBelow before entries i h < entries.size := by
  unfold firstBelow
  split
  · split <;> omega
  · omega

theorem lt_firstBelow (entries : Array α) (i : Nat) (h : 2 * i + 1 < entries.size) :
    i < firstBelow before entries i h := by
  unfold firstBelow
  split
  · split <;> omega
  · omega

/-- Moves the entry at a position down, as long as one below it is due before it. -/
def siftDown (entries : Array α) (i : Nat) : Array α :=
  if h : 2 * i + 1 < entries.size then
    let below := firstBelow before entries i h
    have hb : below < entries.size := firstBelow_lt before entries i h
    if before entries[below] entries[i] then
      siftDown (entries.swap i below (by omega) hb) below
    else entries
  else entries
  termination_by entries.size - i
  decreasing_by
    have := lt_firstBelow before entries i h
    simp only [Array.size_swap]
    omega

/-! ## Pushing and popping -/

/-- Adds an entry. -/
def push (entries : Array α) (entry : α) : Array α := siftUp before (entries.push entry) entries.size

/-- Takes out the entry that is due first. -/
def pop? (entries : Array α) : Option (α × Array α) :=
  if h : 0 < entries.size then
    let rest := entries.pop
    if h' : 0 < rest.size then
      some (entries[0], siftDown before (rest.set 0 entries[entries.size - 1] h') 0)
    else some (entries[0], rest)
  else none

/-! ## Nothing is lost -/

theorem siftUp_perm (entries : Array α) (i : Nat) : (siftUp before entries i).Perm entries := by
  fun_induction siftUp before entries i with
  | case1 entries i h above _ ih => exact ih.trans (Array.swap_perm h.2 above)
  | case2 => exact Array.Perm.refl _
  | case3 => exact Array.Perm.refl _

theorem siftDown_perm (entries : Array α) (i : Nat) :
    (siftDown before entries i).Perm entries := by
  fun_induction siftDown before entries i with
  | case1 entries i h below hb _ ih => exact ih.trans (Array.swap_perm _ hb)
  | case2 => exact Array.Perm.refl _
  | case3 => exact Array.Perm.refl _

/-- Pushing adds the entry and nothing else. -/
theorem push_perm (entries : Array α) (entry : α) :
    (push before entries entry).toList.Perm (entry :: entries.toList) := by
  have h := (siftUp_perm before (entries.push entry) entries.size).toList
  simp only [Array.toList_push] at h
  exact h.trans (List.perm_append_singleton entry entries.toList)

/-- Pushing some entries one after the other adds them and nothing else. -/
theorem foldl_push_perm (added : List α) (entries : Array α) :
    (added.foldl (push before) entries).toList.Perm (entries.toList ++ added) := by
  induction added generalizing entries with
  | nil => simp
  | cons entry added ih =>
    have h := (push_perm before entries entry).append_right added
    exact (ih (push before entries entry)).trans (h.trans List.perm_middle.symm)

/-- Nothing is taken out of an empty heap only. -/
theorem pop?_eq_none {entries : Array α} (h : pop? before entries = none) :
    entries.toList = [] := by
  unfold pop? at h
  split at h
  next =>
    simp only at h
    split at h <;> cases h
  next hempty => simpa using hempty

/-- Popping takes out the entry it gives and nothing else. -/
theorem pop?_perm {entries rest : Array α} {entry : α}
    (h : pop? before entries = some (entry, rest)) :
    entries.toList.Perm (entry :: rest.toList) := by
  unfold pop? at h
  split at h
  next hpos =>
    obtain ⟨l⟩ := entries
    rcases List.eq_nil_or_concat l with rfl | ⟨front, last, rfl⟩
    · simp at hpos
    · simp only [List.concat_eq_append] at h ⊢
      split at h
      next hrest =>
        simp only [List.pop_toArray, List.dropLast_concat] at hrest h
        obtain ⟨rfl, rfl⟩ := Prod.mk.inj (Option.some.inj h)
        cases front with
        | nil => simp at hrest
        | cons x xs =>
          have hp := (siftDown_perm before (((x :: xs).toArray).set 0 last (by simp)) 0).toList
          simp at hp ⊢
          exact (List.perm_append_singleton last xs).trans hp.symm
      next hrest =>
        simp only [List.pop_toArray, List.dropLast_concat] at hrest h
        obtain ⟨rfl, rfl⟩ := Prod.mk.inj (Option.some.inj h)
        cases front with
        | nil => simp
        | cons x xs => simp at hrest
  next => cases h

end CommitReports.Heap
