import CommitReports.Proofs.Path.Segments
import Mathlib.Data.List.Basic

/-!
# What a path says

Empty segments and single dots say nothing; the other segments of a path are its
`moves`. An absolute path is its moves from the root (`components_of_absolute`), and
the moves of a path that was joined are those of the two parts (`moves_join`). So it
does not matter whether a path is joined first and its directory taken then, or the
other way round (`components_join_directory`).

The directory of a path has the moves of the path but the last
(`moves_directory`), whichever way the path is spelled: `parentChars` cuts the text
after the last move but one, and what it keeps is a front of the text
(`parentChars_spec`). It takes the anchor apart first, which is why a front of the
rest can be put behind the anchor again (`filter_segments_anchor`).
-/

namespace CommitReports.Path

/-- The segments of a path that say something, in order. -/
def moves (path : String) : List (List Char) := (segments path.toList).filter (!isIdle ·)

/-! ## Filtering segments -/

theorem filter_not_dropWhile {α : Type} (p : α → Bool) (xs : List α) :
    (xs.dropWhile p).filter (!p ·) = xs.filter (!p ·) := by
  induction xs with
  | nil => rfl
  | cons x xs ih =>
    by_cases hx : p x
    · rw [List.dropWhile_cons_of_pos hx, ih, List.filter_cons_of_neg (by simp [hx])]
    · rw [List.dropWhile_cons_of_neg hx]

/-- Up to the last item that counts, the items that count are all but the last of them. -/
theorem filter_not_of_reverse_dropWhile {α : Type} {p : α → Bool} {xs rest : List α} {x : α}
    (h : xs.reverse.dropWhile p = x :: rest) :
    (rest.dropWhile p).reverse.filter (!p ·) = (xs.filter (!p ·)).dropLast := by
  have hx : p x = false := by
    have hhead := List.head?_dropWhile_not p xs.reverse
    rw [h] at hhead
    simpa using hhead
  have hfilter : (xs.filter (!p ·)).reverse = x :: rest.filter (!p ·) := by
    rw [← List.filter_reverse, ← filter_not_dropWhile, h, List.filter_cons_of_pos (by simp [hx])]
  rw [List.filter_reverse, filter_not_dropWhile, ← List.reverse_reverse (xs.filter _), hfilter,
    List.reverse_cons, List.dropLast_concat]

theorem filter_segments_unsegments {parts : List (List Char)} (h : ∀ part ∈ parts, '/' ∉ part) :
    (segments (unsegments parts)).filter (!isIdle ·) = parts.filter (!isIdle ·) := by
  by_cases hparts : parts = []
  · subst hparts
    rfl
  · rw [segments_unsegments hparts h]

/-- A front of the segments joins to a front of the text. -/
theorem unsegments_prefix {front parts : List (List Char)} (h : front <+: parts) :
    unsegments front <+: unsegments parts := by
  obtain ⟨rest, rfl⟩ := h
  by_cases hfront : front = []
  · subst hfront
    exact List.nil_prefix
  · by_cases hrest : rest = []
    · subst hrest
      simp
    · rw [unsegments_append hfront hrest]
      exact List.prefix_append _ _

/-! ## Anchors -/

/-- A text may stand behind an anchor: behind a leading dot nothing does but a slash. -/
def Anchors (anchor body : List Char) : Prop :=
  anchor = [] ∨ anchor = ['/'] ∨ anchor = ['.'] ∧ ∀ c ∈ body.head?, c = '/'

theorem Anchors.of_prefix {anchor body front : List Char} (h : Anchors anchor body)
    (hfront : front <+: body) : Anchors anchor front := by
  rcases h with h | h | ⟨h, hslash⟩
  · exact .inl h
  · exact .inr (.inl h)
  · refine .inr (.inr ⟨h, ?_⟩)
    obtain ⟨rest, rfl⟩ := hfront
    cases front with
    | nil => nofun
    | cons c front => exact hslash

theorem splitAnchor_spec (cs : List Char) :
    (splitAnchor cs).1 ++ (splitAnchor cs).2 = cs ∧
      Anchors (splitAnchor cs).1 (splitAnchor cs).2 := by
  unfold splitAnchor
  split
  · exact ⟨rfl, .inr (.inl rfl)⟩
  · exact ⟨rfl, .inr (.inr ⟨rfl, by simp⟩)⟩
  · exact ⟨rfl, .inr (.inr ⟨rfl, by simp⟩)⟩
  · exact ⟨rfl, .inl rfl⟩

/-- An anchor is no move. -/
theorem filter_segments_anchor {anchor body : List Char} (h : Anchors anchor body) :
    (segments (anchor ++ body)).filter (!isIdle ·) = (segments body).filter (!isIdle ·) := by
  rcases h with rfl | rfl | ⟨rfl, hslash⟩
  · rfl
  · rw [List.singleton_append, segments, List.filter_cons_of_neg (by decide)]
  · cases body with
    | nil => rfl
    | cons c body =>
      obtain rfl : c = '/' := hslash c rfl
      show (segments (['.'] ++ '/' :: body)).filter (!isIdle ·) = _
      rw [segments_append, segments, List.filter_cons_of_neg (by decide)]
      exact List.filter_cons_of_neg (by decide)

/-! ## The directory of a path -/

/-- The text of a parent is a front of the path; it has the same anchor and the same moves but the
last. A path without a parent has no moves. -/
theorem parentChars_spec (cs : List Char) :
    match parentChars cs with
    | some parent => parent <+: cs ∧
        (segments parent).filter (!isIdle ·) = ((segments cs).filter (!isIdle ·)).dropLast
    | none => (segments cs).filter (!isIdle ·) = [] := by
  obtain ⟨hcs, hanchor⟩ := splitAnchor_spec cs
  rw [parentChars]
  generalize splitAnchor cs = split at hcs hanchor ⊢
  obtain ⟨anchor, body⟩ := split
  dsimp only at hcs hanchor ⊢
  subst hcs
  rw [filter_segments_anchor hanchor]
  cases hrev : (segments body).reverse.dropWhile isIdle with
  | nil =>
    have hnone : (segments body).filter (!isIdle ·) = [] := by
      have hfilter := filter_not_dropWhile isIdle (segments body).reverse
      rw [hrev, List.filter_reverse] at hfilter
      simpa using hfilter.symm
    dsimp only
    by_cases hdot : anchor = ['.']
    · rw [if_pos hdot, hnone]
      exact ⟨List.nil_prefix, rfl⟩
    · rw [if_neg hdot]
      exact hnone
  | cons last rest =>
    -- What is kept are the segments before the last move, without the idle ones at their end.
    have hkept : (rest.dropWhile isIdle).reverse <+: segments body := by
      rw [← List.reverse_suffix, List.reverse_reverse]
      exact (List.dropWhile_suffix _).trans
        ((List.suffix_cons last rest).trans (hrev ▸ List.dropWhile_suffix _))
    have hfront : unsegments (rest.dropWhile isIdle).reverse <+: body := by
      have hprefix := unsegments_prefix hkept
      rwa [unsegments_segments] at hprefix
    refine ⟨(List.prefix_append_right_inj anchor).mpr hfront, ?_⟩
    rw [filter_segments_anchor (hanchor.of_prefix hfront),
      filter_segments_unsegments fun part hpart =>
        slash_not_mem_segments part (hkept.subset hpart)]
    exact filter_not_of_reverse_dropWhile hrev

/-- The directory of a path is the text of its parent, or the current directory. -/
theorem directory_cases (path : String) :
    directory path = "." ∧
        (parentChars path.toList = none ∨ parentChars path.toList = some []) ∨
      ∃ parent, parent ≠ [] ∧ parentChars path.toList = some parent ∧
        directory path = String.ofList parent := by
  unfold directory parent?
  rcases parentChars path.toList with _ | _ | ⟨c, parent⟩
  · exact .inl ⟨rfl, .inl rfl⟩
  · exact .inl ⟨rfl, .inr rfl⟩
  · refine .inr ⟨c :: parent, by simp, rfl, if_neg ?_⟩
    simp [← String.toList_inj]

/-- **The directory of a path has all its moves but the last**, however they are spelled. -/
theorem moves_directory (path : String) : moves (directory path) = (moves path).dropLast := by
  have hspec := parentChars_spec path.toList
  obtain ⟨hdot, hnone | hempty⟩ | ⟨parent, -, hparent, hdirectory⟩ := directory_cases path
  · rw [hnone] at hspec
    rw [hdot, moves, moves, hspec]
    rfl
  · rw [hempty] at hspec
    rw [hdot, moves, moves, ← hspec.2]
    rfl
  · rw [hparent] at hspec
    rw [hdirectory, moves, moves, String.toList_ofList, hspec.2]

/-! ## Absolute paths -/

theorem isAbsolute_iff {path : String} : isAbsolute path = true ↔ path.toList.head? = some '/' := by
  rw [isAbsolute, String.startsWith_string_iff]
  cases path.toList with
  | nil => simp
  | cons c cs => simp [eq_comm]

/-- The directory of a relative path is relative. -/
theorem isAbsolute_directory_of_relative {path : String} (h : ¬isAbsolute path = true) :
    ¬isAbsolute (directory path) = true := by
  have hspec := parentChars_spec path.toList
  obtain ⟨hdot, -⟩ | ⟨parent, hne, hparent, hdirectory⟩ := directory_cases path
  · rw [hdot, isAbsolute_iff]
    decide
  · rw [hparent] at hspec
    obtain ⟨⟨rest, hrest⟩, -⟩ := hspec
    obtain ⟨c, parent, rfl⟩ := List.exists_cons_of_ne_nil hne
    rw [isAbsolute_iff, ← hrest] at h
    rw [hdirectory, isAbsolute_iff, String.toList_ofList]
    exact h

/-- The directory of an absolute path is absolute, unless the path says no more than that. -/
theorem isAbsolute_directory {path : String} (h : isAbsolute path = true) (hmoves : moves path ≠ []) :
    isAbsolute (directory path) = true := by
  obtain ⟨body, hbody⟩ : ∃ body, path.toList = '/' :: body :=
    List.head?_eq_some_iff.mp (isAbsolute_iff.mp h)
  have hparent : ∀ parent ∈ parentChars path.toList, parent.head? = some '/' := by
    intro parent hparent
    rw [hbody, parentChars] at hparent
    simp only [splitAnchor] at hparent
    split at hparent
    · cases hparent
    · cases hparent
      rfl
  obtain ⟨-, hnone | hempty⟩ | ⟨parent, -, hsome, hdirectory⟩ := directory_cases path
  · have hspec := parentChars_spec path.toList
    rw [hnone] at hspec
    exact absurd hspec hmoves
  · exact nomatch hparent [] hempty
  · rw [hdirectory, isAbsolute_iff, String.toList_ofList]
    exact hparent parent hsome

/-- An absolute path is its moves from the root. -/
theorem components_of_absolute {path : String} (h : isAbsolute path = true) :
    components path = .root :: (moves path).filterMap Component.ofSegment := by
  rw [isAbsolute_iff] at h
  have hsteps : ∀ parts : List (List Char),
      (parts.filter (!isIdle ·)).filterMap Component.ofSegment =
        parts.filterMap Component.ofSegment := by
    intro parts
    rw [List.filterMap_filter]
    congr 1
    funext part
    by_cases hidle : isIdle part <;> simp [Component.ofSegment, hidle]
  unfold components moves
  rw [hsteps]
  cases hcs : path.toList with
  | nil => rw [hcs] at h; cases h
  | cons c body =>
    rw [hcs] at h
    cases h
    rfl

/-! ## Joined paths -/

/-- An absolute path stays as it is, wherever it is seen from. -/
theorem join_of_absolute {base path : String} (h : isAbsolute path = true) :
    join base path = path := if_pos h

/-- The segments of a relative path follow those of the base, but for an empty one that a slash at
its end leaves. -/
theorem segments_join {base path : String} (hne : base ≠ "") (h : ¬isAbsolute path = true) :
    ∃ front trail, segments (join base path).toList = front ++ segments path.toList ∧
      segments base.toList = front ++ trail ∧ ∀ part ∈ trail, part = [] := by
  rw [join, if_neg h]
  by_cases hslash : base.endsWith "/" = true
  · obtain ⟨front, hfront⟩ := String.Slice.endsWith_string_iff.mp hslash
    rw [String.copy_toSlice] at hfront
    refine ⟨segments front, [[]], ?_, ?_, by simp⟩
    · rw [if_pos (by simp [hslash]), String.toList_append, ← hfront]
      simpa using segments_append front path.toList
    · rw [← hfront]
      exact segments_append front []
  · refine ⟨segments base.toList, [], ?_, (List.append_nil _).symm, nofun⟩
    rw [if_neg (by simp [hne, hslash]), String.toList_append, String.toList_append,
      List.append_assoc]
    exact segments_append base.toList path.toList

/-- **A relative path has its moves behind those of the base.** -/
theorem moves_join (base : String) {path : String} (h : ¬isAbsolute path = true) :
    moves (join base path) = moves base ++ moves path := by
  by_cases hempty : base = ""
  · subst hempty
    rw [join, if_neg h, if_pos (by decide), String.empty_append]
    rfl
  · obtain ⟨front, trail, hjoin, hbase, htrail⟩ := segments_join hempty h
    have hidle : trail.filter (!isIdle ·) = [] :=
      List.filter_eq_nil_iff.mpr fun part hpart => by rw [htrail part hpart]; decide
    rw [moves, moves, moves, hjoin, hbase, List.filter_append, List.filter_append, hidle,
      List.append_nil]

/-- What is seen from an absolute path is absolute. -/
theorem isAbsolute_join {base : String} (path : String) (h : isAbsolute base = true) :
    isAbsolute (join base path) = true := by
  by_cases hpath : isAbsolute path = true
  · rwa [join_of_absolute hpath]
  · obtain ⟨cs, hcs⟩ := List.head?_eq_some_iff.mp (isAbsolute_iff.mp h)
    rw [join, if_neg hpath, isAbsolute_iff]
    split <;> simp [String.toList_append, hcs]

theorem directory_ne_empty (path : String) : directory path ≠ "" := by
  obtain ⟨hdot, -⟩ | ⟨parent, hne, -, hdirectory⟩ := directory_cases path
  · rw [hdot]
    decide
  · simpa [hdirectory, ← String.toList_inj] using hne

/-- A relative path seen from a relative one is relative. -/
theorem isAbsolute_join_of_relative {base path : String} (hne : base ≠ "")
    (hbase : ¬isAbsolute base = true) (hpath : ¬isAbsolute path = true) :
    ¬isAbsolute (join base path) = true := by
  obtain ⟨c, cs, hcs⟩ := List.exists_cons_of_ne_nil (mt String.toList_eq_nil_iff.mp hne)
  rw [isAbsolute_iff, hcs] at hbase
  rw [join, if_neg hpath, isAbsolute_iff]
  split <;> simpa [String.toList_append, hcs] using hbase

/-- **What is seen from the directory of a path does not depend on where the path is seen from**:
whether the directory is joined to `base`, or is that of the joined path, the steps are the same. -/
theorem components_join_directory {base path : String} (value : String)
    (hbase : isAbsolute base = true) (hpath : ¬isAbsolute path = true) (hmoves : moves path ≠ []) :
    components (join base (join (directory path) value)) =
      components (join (directory (join base path)) value) := by
  by_cases hvalue : isAbsolute value = true
  · rw [join_of_absolute hvalue, join_of_absolute hvalue, join_of_absolute hvalue]
  · have hdirectory : ¬isAbsolute (directory path) = true := isAbsolute_directory_of_relative hpath
    have hinner : ¬isAbsolute (join (directory path) value) = true :=
      isAbsolute_join_of_relative (directory_ne_empty path) hdirectory hvalue
    have hjoined : moves (join base path) ≠ [] := by
      rw [moves_join base hpath]
      exact List.append_ne_nil_of_right_ne_nil _ hmoves
    have habsolute : isAbsolute (directory (join base path)) = true :=
      isAbsolute_directory (isAbsolute_join path hbase) hjoined
    have hsame : moves (join base (join (directory path) value)) =
        moves (join (directory (join base path)) value) :=
      calc moves (join base (join (directory path) value))
        _ = moves base ++ ((moves path).dropLast ++ moves value) := by
            rw [moves_join base hinner, moves_join _ hvalue, moves_directory]
        _ = (moves base ++ moves path).dropLast ++ moves value := by
            rw [List.dropLast_append_of_ne_nil hmoves, List.append_assoc]
        _ = moves (join (directory (join base path)) value) := by
            rw [moves_join _ hvalue, moves_directory, moves_join base hpath]
    rw [components_of_absolute (isAbsolute_join _ hbase),
      components_of_absolute (isAbsolute_join _ habsolute), hsame]

end CommitReports.Path
