import CommitReports.Proofs.Files.Walk

/-!
# Files that are in no one's way

A place is *open* if neither a directory stands there nor a link that leads to one
(`Files.Open`): no descent passes it, so a file can be put there and every path to a
directory still leads to it (`Open.descend_put`). Then also the directory of a path
and the place that a rename leads to are what they were (`Open.directoryAt_put`,
`Open.renameTarget_put`). Open places are those where a file stands or nothing
(`open_of_free_or_file`), and the place that a rename to a path leads to if the path
can be written to (`open_of_renameTarget`).
-/

namespace CommitReports.Files

variable {files : Files} {links left : Nat} {cur place : Place}

/-! ## Where a file is or could be -/

/-- The walk has ended at a place where a file stands or can be made. -/
def Reached.IsFileAt (place : Place) : Reached → Prop
  | .entry found (.file ..) => found = place
  | .vacant found => found = place
  | _ => False

theorem Reached.IsFileAt.ne_directory {reached : Reached} (h : reached.IsFileAt place)
    (other : Place) : reached ≠ .entry other .directory := by
  rintro rfl
  exact h

/-- A walk to a file or to a free name comes to the file that is put there. -/
theorem walkFrom_put {segments : List String} {reached : Reached} (content : ByteArray)
    (executable : Bool) (h : files.walkFrom true links cur segments = .ok reached)
    (hreached : reached.IsFileAt place) :
    (files.find? place = none ∨ ∃ old mode, files.find? place = some (.file old mode)) ∧
      (files.put place (.file content executable)).walkFrom true links cur segments =
        .ok (.entry place (.file content executable)) := by
  have hself : ∀ {cur s}, (files.put (cur ++ [s]) (.file content executable)).find? (cur ++ [s]) =
      some (.file content executable) := find?_put_self files _ (by simp)
  fun_induction walkFrom files true links cur segments with
  | case1 => cases h; cases hreached
  | case2 _ _ _ _ hs ih =>
    rw [walkFrom, if_pos hs]
    exact ih h
  | case3 _ _ _ hs ih =>
    rw [walkFrom, if_neg hs, if_pos rfl]
    exact ih h
  | case4 => cases h
  | case5 _ _ s hidle hup hsize hentry =>
    cases h
    cases hreached
    rw [walkFrom, if_neg hidle, if_neg hup, if_neg hsize, hself]
    exact ⟨.inl hentry, rfl⟩
  | case6 => cases h
  | case7 _ cur s _ hidle hup hsize hentry ih =>
    obtain ⟨hfile, hwalk⟩ := ih h
    -- A directory on the way is not where the file is put.
    have hne : cur ++ [s] ≠ place := by
      rintro rfl
      simp [hentry] at hfile
    rw [walkFrom_directory hidle hup hsize ((find?_put_of_ne _ _ hne).trans hentry)]
    exact ⟨hfile, hwalk⟩
  | case8 _ _ s hidle hup hsize old mode hentry =>
    cases h
    cases hreached
    rw [walkFrom, if_neg hidle, if_neg hup, if_neg hsize, hself]
    exact ⟨.inr ⟨old, mode, hentry⟩, rfl⟩
  | case9 => cases h
  | case10 => cases h; cases hreached
  | case11 => cases h
  | case12 cur s _ hidle hup hsize _ hentry _ links ih =>
    obtain ⟨hfile, hwalk⟩ := ih h
    have hne : cur ++ [s] ≠ place := by
      rintro rfl
      simp [hentry] at hfile
    rw [walkFrom_link hidle hup hsize ((find?_put_of_ne _ _ hne).trans hentry)]
    exact ⟨hfile, hwalk⟩

/-- Links are followed, so a walk does not end at one. -/
theorem walkFrom_ne_link {segments : List String} (target : String) :
    files.walkFrom true links cur segments ≠ .ok (.entry place (.link target)) := by
  intro h
  fun_induction walkFrom files true links cur segments with
  | case1 => cases h
  | case2 _ _ _ _ _ ih => exact ih h
  | case3 _ _ _ _ ih => exact ih h
  | case4 => cases h
  | case5 => cases h
  | case6 => cases h
  | case7 _ _ _ _ _ _ _ _ ih => exact ih h
  | case8 => cases h
  | case9 => cases h
  | case10 _ _ _ _ _ _ _ _ _ hlast => simp at hlast
  | case11 => cases h
  | case12 _ _ _ _ _ _ _ _ _ _ ih => exact ih h

/-- A path is followed from the root or from the current directory, if it is fit to be followed. -/
theorem walk_eq_ok_iff {path : String} {follow : Bool} {reached : Reached} :
    files.walk follow path = .ok reached ↔
      (path.contains '\x00' = false ∧ path ≠ "" ∧ path.utf8ByteSize < maxPathSize) ∧
      files.walkFrom follow maxLinks (if Path.isAbsolute path then [] else files.here)
        (segmentsOf path) = .ok reached := by
  unfold walk
  by_cases hnul : path.contains '\x00' = true
  · simp [hnul]
  by_cases hempty : path = ""
  · simp [hempty]
  by_cases hlong : maxPathSize ≤ path.utf8ByteSize
  · simp [hnul, hempty, hlong, Nat.not_lt.mpr hlong]
  · simp [hnul, hempty, hlong, Nat.lt_of_not_le hlong]

theorem walk_of_tooLong {path : String} {follow : Bool} (hnul : path.contains '\x00' = false)
    (h : maxPathSize ≤ path.utf8ByteSize) : files.walk follow path = .error .nameTooLong := by
  have hempty : path ≠ "" := by
    rintro rfl
    exact absurd h (by decide)
  rw [walk, if_neg (Bool.eq_false_iff.mp hnul), if_neg hempty, if_pos h]

/-- The text of a file is the one that its bytes spell. -/
theorem readText_eq_ok_iff {path text : String} :
    files.readText path = .ok text ↔ files.read path = .ok text.toUTF8 := by
  have hspells : ∀ bytes : ByteArray, String.fromUTF8? bytes = some text ↔ bytes = text.toUTF8 := by
    intro bytes
    unfold String.fromUTF8?
    constructor
    · intro h
      split at h <;> cases h
      rfl
    · rintro rfl
      exact dif_pos text.isValidUTF8
  unfold readText
  cases files.read path with
  | error e => simp
  | ok bytes =>
    simp only [Except.ok.injEq, ← hspells]
    cases String.fromUTF8? bytes <;> simp

/-- A path that is read leads to a file. -/
theorem exists_walk_of_read {path : String} {bytes : ByteArray} (h : files.read path = .ok bytes) :
    ∃ place executable, files.walk true path = .ok (.entry place (.file bytes executable)) := by
  unfold read at h
  split at h <;> cases h
  next place executable hwalk =>
  exact ⟨place, executable, hwalk⟩

theorem readText_congr {path other : String} (h : files.walk true path = files.walk true other) :
    files.readText path = files.readText other := by
  rw [readText, readText, read, read, h]

theorem readText_of_walk_error {path : String} {e : SystemError}
    (h : files.walk true path = .error e) : files.readText path = .error e := by
  rw [readText, read, h]

/-- A path can be written to if it leads to a file or to a free name. -/
theorem writable_eq_ok_iff {path : String} :
    files.writable path = .ok place ↔
      ∃ reached, files.walk true path = .ok reached ∧ reached.IsFileAt place := by
  unfold writable
  cases hwalk : files.walk true path with
  | error e => simp
  | ok reached =>
    rcases reached with ⟨found, ⟨content, mode⟩ | ⟨target⟩ | _⟩ | found
    · simp [Reached.IsFileAt]
    · exact absurd (walk_eq_ok_iff.mp hwalk).2 (walkFrom_ne_link target)
    · simp [Reached.IsFileAt]
    · simp [Reached.IsFileAt]

/-- A path that can be read can be written to. -/
theorem exists_writable_of_read {path : String} {bytes : ByteArray}
    (h : files.read path = .ok bytes) : ∃ place, files.writable path = .ok place := by
  obtain ⟨place, executable, hwalk⟩ := exists_walk_of_read h
  exact ⟨place, writable_eq_ok_iff.mpr ⟨_, hwalk, rfl⟩⟩

theorem exists_writable_of_readText {path text : String} (h : files.readText path = .ok text) :
    ∃ place, files.writable path = .ok place :=
  exists_writable_of_read (readText_eq_ok_iff.mp h)

/-! ## Where a rename leads -/

/-- With an empty segment at its end, a walk comes to the directory of the descent, or nowhere. -/
theorem walkFrom_concat_empty_eq_ok_iff {above : List String} {reached : Reached} :
    files.walkFrom true links cur (above ++ [""]) = .ok reached ↔
      ∃ left directory, files.descend links cur above = some (left, directory) ∧
        reached = .entry directory .directory := by
  constructor
  · intro hwalk
    obtain ⟨left, directory, hdescend⟩ := exists_descend (by simp) hwalk
    rw [walkFrom_append _ hdescend, walkFrom, if_pos (.inl rfl), walkFrom] at hwalk
    cases hwalk
    exact ⟨left, directory, hdescend, rfl⟩
  · rintro ⟨left, directory, hdescend, rfl⟩
    rw [walkFrom_append _ hdescend, walkFrom, if_pos (.inl rfl), walkFrom]

/-- If no empty segment had to be dropped at the end, the name before them is the last segment. -/
theorem dropWhile_reverse_eq_cons_iff {segments above : List String} {name : String} :
    segments.reverse.dropWhile (· == "") = name :: above ∧ ¬segments.reverse.head? = some "" ↔
      segments = above.reverse ++ [name] ∧ name ≠ "" := by
  constructor
  · rintro ⟨hdrop, hhead⟩
    have hreversed : segments.reverse = name :: above := by
      cases hr : segments.reverse with
      | nil => rw [hr] at hdrop; cases hdrop
      | cons s rest =>
        have hs : s ≠ "" := by
          rintro rfl
          exact hhead (by rw [hr]; rfl)
        rw [hr, List.dropWhile_cons_of_neg (by simpa using hs)] at hdrop
        exact hdrop
    refine ⟨by simpa using congrArg List.reverse hreversed, ?_⟩
    rintro rfl
    exact hhead (by rw [hreversed]; rfl)
  · rintro ⟨rfl, hne⟩
    rw [List.reverse_concat, List.reverse_reverse,
      List.dropWhile_cons_of_neg (by simpa using hne)]
    exact ⟨rfl, by simpa using hne⟩

/-- A rename leads to a last segment that is a name, in the directory that the others lead to. -/
theorem renameTarget_eq_ok_iff {path : String} {target : Place} :
    files.renameTarget path = .ok target ↔
      (path.contains '\x00' = false ∧ path ≠ "" ∧ path.utf8ByteSize < maxPathSize) ∧
      ∃ above name directory left, segmentsOf path = above ++ [name] ∧
        (name ≠ "" ∧ name ≠ "." ∧ name ≠ ".." ∧ name.utf8ByteSize ≤ maxNameSize) ∧
        files.descend maxLinks (if Path.isAbsolute path then [] else files.here) above =
          some (left, directory) ∧
        files.find? (directory ++ [name]) ≠ some .directory ∧ target = directory ++ [name] := by
  constructor
  · intro h
    unfold renameTarget at h
    split at h
    · cases h
    next hnul =>
    split at h
    · cases h
    next hempty =>
    split at h
    · cases h
    next hlong =>
    refine ⟨⟨by simpa using hnul, hempty, Nat.lt_of_not_le hlong⟩, ?_⟩
    simp only at h
    split at h
    next => cases h
    next name above hdrop =>
      split at h
      iterate 4 exact absurd h nofun
      next directory hwalk =>
      split at h
      · cases h
      next hname =>
      split at h
      · cases h
      next hsize =>
      split at h
      · cases h
      next hhead =>
      split at h
      · cases h
      next hdir =>
      cases h
      obtain ⟨hsegments, hne⟩ := dropWhile_reverse_eq_cons_iff.mp ⟨hdrop, hhead⟩
      obtain ⟨left, _, hdescend, hreached⟩ := walkFrom_concat_empty_eq_ok_iff.mp hwalk
      cases hreached
      exact ⟨above.reverse, name, directory, left, hsegments,
        ⟨hne, fun h => hname (.inl h), fun h => hname (.inr h), Nat.le_of_not_lt hsize⟩, hdescend,
        hdir, rfl⟩
  · rintro ⟨⟨hnul, hempty, hlong⟩, above, name, directory, left, hsegments,
      ⟨hne, hdot, hup, hsize⟩, hdescend, hdir, rfl⟩
    have hwalk := walkFrom_concat_empty_eq_ok_iff.mpr ⟨left, directory, hdescend, rfl⟩
    obtain ⟨hdrop, hhead⟩ := dropWhile_reverse_eq_cons_iff.mpr
      ⟨(List.reverse_reverse above).symm ▸ hsegments, hne⟩
    unfold renameTarget
    rw [if_neg (by simp [hnul]), if_neg hempty, if_neg (Nat.not_le.mpr hlong)]
    simp only [hdrop, List.reverse_reverse, hwalk]
    rw [if_neg (by simp [hdot, hup]), if_neg (Nat.not_lt.mpr hsize), if_neg hhead]

/-! ## Open places -/

/-- Neither a directory stands at the place, nor a link that leads to one. -/
structure Open (files : Files) (place : Place) : Prop where
  directory : files.find? place ≠ some .directory
  link : ∀ directory name target, place = directory ++ [name] →
    files.find? place = some (.link target) →
      ∀ links rest, files.descend links (startOf directory target) (segmentsOf target ++ rest) = none

/-- A place where a file stands, or nothing, is open. -/
theorem open_of_free_or_file
    (h : files.find? place = none ∨ ∃ old mode, files.find? place = some (.file old mode)) :
    files.Open place := by
  rcases h with hfree | ⟨old, mode, hfile⟩
  · exact ⟨by simp [hfree], fun _ _ _ _ h => by simp [hfree] at h⟩
  · exact ⟨by simp [hfile], fun _ _ _ _ h => by simp [hfile] at h⟩

/-- The place that a rename to a path leads to is open if the path can be written to. -/
theorem open_of_renameTarget {path : String} {target : Place}
    (hwritable : files.writable path = .ok place) (h : files.renameTarget path = .ok target) :
    files.Open target := by
  obtain ⟨reached, hwalk, hreached⟩ := writable_eq_ok_iff.mp hwritable
  obtain ⟨-, above, name, directory, left, hsegments, ⟨hne, hdot, hup, hsize⟩, hdescend, hdir, rfl⟩ :=
    renameTarget_eq_ok_iff.mp h
  refine ⟨hdir, ?_⟩
  intro directory' name' link hsplit hlink links rest
  obtain ⟨rfl, hname⟩ := List.append_inj' hsplit rfl
  -- The path goes on through the link, and not to a directory.
  have hend := (walk_eq_ok_iff.mp hwalk).2
  rw [hsegments, walkFrom_append _ hdescend] at hend
  have hidle : ¬(name = "" ∨ name = ".") := fun h => h.elim hne hdot
  have htoo : ¬maxNameSize < name.utf8ByteSize := Nat.not_lt.mpr hsize
  cases left with
  | zero =>
    rw [walkFrom_link_zero hidle hup htoo hlink] at hend
    cases hend
  | succ left =>
    rw [walkFrom_link hidle hup htoo hlink, List.append_nil] at hend
    exact not_descend_of_walkFrom hend hreached.ne_directory

namespace Open

variable {content : ByteArray} {executable : Bool}

/-- A file at an open place is in no one's way. -/
theorem descend_put (h : files.Open place) (entry : Entry) {segments : List String} {cur' : Place}
    (hdescend : files.descend links cur segments = some (left, cur')) :
    (files.put place entry).descend links cur segments = some (left, cur') := by
  rcases List.eq_nil_or_concat place with rfl | ⟨directory, name, hplace⟩
  · exact absurd rfl h.directory
  · rw [List.concat_eq_append] at hplace
    subst hplace
    obtain hafter | ⟨target, rest, before, hlink, hbefore⟩ :=
      Files.descend_put entry h.directory hdescend
    · exact hafter
    · rw [h.link directory name target rfl hlink] at hbefore
      cases hbefore

/-- A path to a directory leads to it as before. -/
theorem directoryAt_put (h : files.Open place) (entry : Entry) {path : String} {directory : Place}
    (hdirectory : files.directoryAt path = .ok directory) :
    (files.put place entry).directoryAt path = .ok directory := by
  unfold directoryAt at hdirectory ⊢
  split at hdirectory <;> cases hdirectory
  next hwalk =>
  obtain ⟨hfit, hwalk⟩ := walk_eq_ok_iff.mp hwalk
  obtain ⟨left, hdescend⟩ := descend_of_walkFrom hwalk
  have hafter := walkFrom_of_descend_self (h.descend_put entry hdescend)
  rw [walk_eq_ok_iff.mpr ⟨hfit, hafter⟩]

/-- A rename to a path leads to the same place as before. -/
theorem renameTarget_put (h : files.Open place) {path : String} {target : Place}
    (htarget : files.renameTarget path = .ok target) :
    (files.put place (.file content executable)).renameTarget path = .ok target := by
  obtain ⟨hfit, above, name, directory, left, hsegments, hname, hdescend, hdir, rfl⟩ :=
    renameTarget_eq_ok_iff.mp htarget
  refine renameTarget_eq_ok_iff.mpr
    ⟨hfit, above, name, directory, left, hsegments, hname, h.descend_put _ hdescend, ?_, rfl⟩
  by_cases heq : directory ++ [name] = place
  · rw [← heq, find?_put_self files _ (by simp)]
    nofun
  · rwa [find?_put_of_ne _ _ heq]

end Open

/-- Where nothing stood, a new file has no part in where a rename leads. -/
theorem renameTarget_of_put {path : String} {target : Place} {content : ByteArray}
    {executable : Bool} (hfree : files.find? place = none)
    (h : (files.put place (.file content executable)).renameTarget path = .ok target) :
    files.renameTarget path = .ok target := by
  obtain ⟨hfit, above, name, directory, left, hsegments, hname, hdescend, hdir, rfl⟩ :=
    renameTarget_eq_ok_iff.mp h
  refine renameTarget_eq_ok_iff.mpr
    ⟨hfit, above, name, directory, left, hsegments, hname,
      descend_of_put_file (ne_nil_of_free hfree) hdescend, ?_, rfl⟩
  by_cases heq : directory ++ [name] = place
  · rw [heq, hfree]
    nofun
  · rwa [find?_put_of_ne _ _ heq] at hdir

/-! ## Writing and reading -/

/-- A file is written with a mode that does not depend on its content. -/
theorem exists_store_eq_put (files : Files) (place : Place) :
    ∃ mode, ∀ content, files.store place content = files.put place (.file content mode) := by
  unfold store
  split
  next mode _ => exact ⟨mode, fun _ => rfl⟩
  next => exact ⟨false, fun _ => rfl⟩

/-- Where a path can be written to there is a file, or nothing. -/
theorem free_or_file_of_writable {path : String} (h : files.writable path = .ok place) :
    files.find? place = none ∨ ∃ old mode, files.find? place = some (.file old mode) := by
  obtain ⟨reached, hwalk, hreached⟩ := writable_eq_ok_iff.mp h
  exact (walkFrom_put .empty false (walk_eq_ok_iff.mp hwalk).2 hreached).1

/-- What is written to a path is read there. -/
theorem read_store {path : String} (h : files.writable path = .ok place) (content : ByteArray) :
    (files.store place content).read path = .ok content := by
  obtain ⟨reached, hwalk, hreached⟩ := writable_eq_ok_iff.mp h
  obtain ⟨hfit, hwalk⟩ := walk_eq_ok_iff.mp hwalk
  obtain ⟨mode, hstore⟩ := files.exists_store_eq_put place
  have hafter := (walkFrom_put content mode hwalk hreached).2
  rw [hstore, read, walk_eq_ok_iff.mpr ⟨hfit, hafter⟩]

end CommitReports.Files
