import CommitReports.Proofs.Files.Overwriting
import CommitReports.Proofs.Path.Components

/-!
# The directory of a path on the disk

A descent is that of its moves: segments that say nothing lead nowhere
(`descend_congr`). The directory of a path has the moves of the path but the last, so
on the disk it is the place that the last segment of the path is looked up in
(`directoryAt_directory_iff`), whichever way the two texts are spelled.

A relative path leads to the same place if it is joined to a path of the current
directory, as long as the text does not become too long, nor its links too many
(`walk_join`).
-/

namespace CommitReports.Files

variable {files : Files} {links left : Nat} {cur place : Place}

/-! ## Segments that say nothing -/

/-- The segment is a step of a walk. -/
def isMove (s : String) : Bool := !(s == "" || s == ".")

theorem isMove_iff {s : String} : isMove s = true ↔ ¬(s = "" ∨ s = ".") := by
  simp [isMove]

theorem descend_idle {front : List String} (rest : List String)
    (h : ∀ s ∈ front, ¬isMove s = true) :
    files.descend links cur (front ++ rest) = files.descend links cur rest := by
  induction front with
  | nil => rfl
  | cons s front ih =>
    obtain ⟨hs, hfront⟩ := List.forall_mem_cons.mp h
    rw [List.cons_append, descend, if_pos (Decidable.not_not.mp (mt isMove_iff.mpr hs))]
    exact ih hfront

/-- A list with the same moves has idle segments, then the same first move, then the same others. -/
theorem exists_of_filter_isMove {s : String} {rest b : List String} (hs : ¬(s = "" ∨ s = "."))
    (h : (s :: rest).filter isMove = b.filter isMove) :
    ∃ front b', b = front ++ s :: b' ∧ (∀ s' ∈ front, ¬isMove s' = true) ∧
      rest.filter isMove = b'.filter isMove := by
  rw [List.filter_cons_of_pos (isMove_iff.mpr hs)] at h
  obtain ⟨front, b', hb, hfront, -, hrest⟩ := List.filter_eq_cons_iff.mp h.symm
  exact ⟨front, b', hb, hfront, hrest.symm⟩

/-- A descent is that of its moves: what stands between them does not matter. -/
theorem descend_congr {a b : List String} (h : a.filter isMove = b.filter isMove) :
    files.descend links cur a = files.descend links cur b := by
  fun_induction descend files links cur a generalizing b with
  | case1 =>
    have hb := List.filter_eq_nil_iff.mp h.symm
    rw [← List.append_nil b, descend_idle [] hb, descend]
  | case2 _ _ _ _ hs ih =>
    rw [List.filter_cons_of_neg (mt isMove_iff.mp (not_not_intro hs))] at h
    exact ih h
  | case3 _ _ _ hs ih =>
    obtain ⟨front, b', rfl, hfront, hrest⟩ := exists_of_filter_isMove hs h
    rw [descend_idle _ hfront, descend, if_neg hs, if_pos rfl]
    exact ih hrest
  | case4 _ _ _ _ hidle hup hsize =>
    obtain ⟨front, b', rfl, hfront, -⟩ := exists_of_filter_isMove hidle h
    rw [descend_idle _ hfront, descend, if_neg hidle, if_neg hup, if_pos hsize]
  | case5 _ _ _ _ hidle hup hsize hfind ih =>
    obtain ⟨front, b', rfl, hfront, hrest⟩ := exists_of_filter_isMove hidle h
    rw [descend_idle _ hfront, descend, if_neg hidle, if_neg hup, if_neg hsize, hfind]
    exact ih hrest
  | case6 _ _ _ hidle hup hsize _ hfind =>
    obtain ⟨front, b', rfl, hfront, -⟩ := exists_of_filter_isMove hidle h
    rw [descend_idle _ hfront, descend, if_neg hidle, if_neg hup, if_neg hsize, hfind]
  | case7 _ _ _ hidle hup hsize _ hfind _ ih =>
    -- What a link stands for is the same on both sides; what follows has the same moves.
    obtain ⟨front, b', rfl, hfront, hrest⟩ := exists_of_filter_isMove hidle h
    rw [descend_idle _ hfront, descend, if_neg hidle, if_neg hup, if_neg hsize, hfind]
    exact ih (by rw [List.filter_append, List.filter_append, hrest])
  | case8 _ _ _ _ hidle hup hsize hdir hlink =>
    obtain ⟨front, b', rfl, hfront, -⟩ := exists_of_filter_isMove hidle h
    rw [descend_idle _ hfront, descend, if_neg hidle, if_neg hup, if_neg hsize]
    split
    next hfind => exact absurd hfind hdir
    next hfind => exact absurd hfind (hlink _)
    next => rfl

/-- The moves of a path are the segments that are steps of its walk. -/
theorem filter_segmentsOf (path : String) :
    (segmentsOf path).filter isMove = (Path.moves path).map String.ofList := by
  have hsame : isMove ∘ String.ofList = fun segment => !Path.isIdle segment := by
    funext segment
    rw [Bool.eq_iff_iff, Function.comp_apply, isMove_iff]
    simp [Path.isIdle, ← String.toList_inj]
  rw [segmentsOf, List.filter_map, hsame]
  rfl

/-! ## Directories by path -/

/-- A path leads to a directory if its segments descend to it. -/
theorem directoryAt_eq_ok_iff {path : String} :
    files.directoryAt path = .ok place ↔
      (path.contains '\x00' = false ∧ path ≠ "" ∧ path.utf8ByteSize < maxPathSize) ∧
      ∃ left, files.descend maxLinks (if Path.isAbsolute path then [] else files.here)
        (segmentsOf path) = some (left, place) := by
  constructor
  · intro h
    unfold directoryAt at h
    split at h <;> cases h
    next hwalk =>
    obtain ⟨hfit, hwalk⟩ := walk_eq_ok_iff.mp hwalk
    exact ⟨hfit, descend_of_walkFrom hwalk⟩
  · rintro ⟨hfit, left, hdescend⟩
    have hwalk := walkFrom_of_descend_self hdescend
    rw [directoryAt, walk_eq_ok_iff.mpr ⟨hfit, hwalk⟩]

/-- **The directory of a path is where its last segment is looked up**, if that segment is a move. -/
theorem directoryAt_directory_iff {path name : String} {above : List String}
    (hsegments : segmentsOf path = above ++ [name]) (hname : isMove name = true)
    (hfit : (Path.directory path).contains '\x00' = false ∧ Path.directory path ≠ "" ∧
      (Path.directory path).utf8ByteSize < maxPathSize) :
    files.directoryAt (Path.directory path) = .ok place ↔
      ∃ left, files.descend maxLinks (if Path.isAbsolute path then [] else files.here) above =
        some (left, place) := by
  have hmoves : (Path.moves path).map String.ofList = above.filter isMove ++ [name] := by
    rw [← filter_segmentsOf, hsegments, List.filter_append, List.filter_cons_of_pos hname]
    rfl
  have hsame : (segmentsOf (Path.directory path)).filter isMove = above.filter isMove := by
    rw [filter_segmentsOf, Path.moves_directory, List.map_dropLast, hmoves, List.dropLast_concat]
  have hne : Path.moves path ≠ [] := by
    rintro hnil
    rw [hnil] at hmoves
    simp at hmoves
  have hstart : Path.isAbsolute (Path.directory path) = Path.isAbsolute path := by
    by_cases habs : Path.isAbsolute path = true
    · rw [habs, Path.isAbsolute_directory habs hne]
    · rw [Bool.eq_false_iff.mpr habs, Bool.eq_false_iff.mpr (Path.isAbsolute_directory_of_relative habs)]
  rw [directoryAt_eq_ok_iff, hstart, descend_congr hsame]
  exact and_iff_right hfit

/-! ## Paths seen from the current directory -/

/-- A path that leads to anything but the directory it starts from has moves. -/
theorem moves_ne_nil_of_walk {path : String} {reached : Reached}
    (h : files.walk true path = .ok reached) (hreached : ∀ place, reached ≠ .entry place .directory) :
    Path.moves path ≠ [] := by
  intro hnil
  obtain ⟨-, hwalk⟩ := walk_eq_ok_iff.mp h
  have hidle : (segmentsOf path).filter isMove = ([] : List String).filter isMove := by
    rw [filter_segmentsOf, hnil]
    rfl
  rw [walkFrom_of_descend_self ((descend_congr hidle).trans (by rw [descend]))] at hwalk
  exact hreached _ (Except.ok.inj hwalk).symm

/-- The path leads to the current directory through so many links that too few are left to follow
the other path from there. -/
def Exhausts (files : Files) (path other : String) : Prop :=
  ∃ left, left < maxLinks ∧
    files.descend maxLinks [] (segmentsOf path) = some (left, files.here) ∧
    files.walkFrom true left files.here (segmentsOf other) = .error .tooManyLinks

/-- The segments of a relative path are followed from where the base leads to. -/
theorem walkFrom_join {base path : String} (hne : base ≠ "") (hpath : ¬Path.isAbsolute path = true)
    (h : files.descend links cur (segmentsOf base) = some (left, place)) :
    files.walkFrom true links cur (segmentsOf (Path.join base path)) =
      files.walkFrom true left place (segmentsOf path) := by
  obtain ⟨front, trail, hjoin, hbase, htrail⟩ := Path.segments_join hne hpath
  have hidle : (trail.map String.ofList).filter isMove = [] := by
    rw [List.filter_eq_nil_iff, List.forall_mem_map]
    intro part hpart
    rw [htrail part hpart]
    decide
  have hfront : files.descend links cur (front.map String.ofList) = some (left, place) := by
    rw [← h, segmentsOf, hbase, List.map_append]
    exact descend_congr (by rw [List.filter_append, hidle, List.append_nil])
  rw [segmentsOf, hjoin, List.map_append]
  exact walkFrom_append _ hfront

theorem contains_join {base path : String} {c : Char} (hc : c ≠ '/') (hbase : base.contains c = false)
    (hpath : path.contains c = false) : (Path.join base path).contains c = false := by
  simp only [String.contains_char_eq, decide_eq_false_iff_not] at *
  unfold Path.join
  split_ifs <;> simp [String.toList_append, *]

/-- **A relative path leads to the same place if it is seen from the current directory**, unless
that makes it too long or its links too many. -/
theorem walk_join {base path : String} {reached : Reached} (hbase : Path.isAbsolute base = true)
    (hhere : files.directoryAt base = .ok files.here) (hpath : ¬Path.isAbsolute path = true)
    (h : files.walk true path = .ok reached) :
    files.walk true (Path.join base path) = .ok reached ∨
      maxPathSize ≤ (Path.join base path).utf8ByteSize ∧
        files.walk true (Path.join base path) = .error .nameTooLong ∨
      files.Exhausts base path ∧
        files.walk true (Path.join base path) = .error .tooManyLinks := by
  obtain ⟨⟨hnulBase, hne, -⟩, left, hdescend⟩ := directoryAt_eq_ok_iff.mp hhere
  obtain ⟨⟨hnulPath, -, -⟩, hwalk⟩ := walk_eq_ok_iff.mp h
  rw [if_pos hbase] at hdescend
  rw [if_neg hpath] at hwalk
  have hnul : (Path.join base path).contains '\x00' = false :=
    contains_join (by decide) hnulBase hnulPath
  by_cases hsize : maxPathSize ≤ (Path.join base path).utf8ByteSize
  · exact .inr (.inl ⟨hsize, walk_of_tooLong hnul hsize⟩)
  have habsolute : Path.isAbsolute (Path.join base path) = true := Path.isAbsolute_join path hbase
  have hsome : Path.join base path ≠ "" := by
    rintro hempty
    rw [hempty, Path.isAbsolute_iff] at habsolute
    cases habsolute
  have hjoined : files.walk true (Path.join base path) =
      files.walkFrom true left files.here (segmentsOf path) := by
    rw [walk, if_neg (Bool.eq_false_iff.mp hnul), if_neg hsome, if_neg hsize, if_pos habsolute]
    exact walkFrom_join hne hpath hdescend
  rw [hjoined]
  have hle : left ≤ maxLinks := left_le_of_descend hdescend
  rcases walkFrom_fewer hle files.here (segmentsOf path) with hsame | hexhausted
  · exact .inl (hsame.trans hwalk)
  · have hless : left < maxLinks := by
      refine Nat.lt_of_le_of_ne hle ?_
      rintro rfl
      rw [hwalk] at hexhausted
      cases hexhausted
    exact .inr (.inr ⟨⟨left, hless, hdescend, hexhausted⟩, hexhausted⟩)

end CommitReports.Files
