import CommitReports.Files.Replacement

/-!
# Walking through directories

A walk that goes on after some segments has gone through directories and links up
to there: `Files.descend` follows the segments as `Files.walkFrom` does, but
through directories only, and gives the place it comes to and the links it may
still follow. A walk along `a ++ b` is the descent along `a` and the walk along
`b` from there (`walkFrom_append`, `exists_descend`).

The descent depends only on what stands at the places that it passes. It passes a
place that holds no directory only if a link stands there (`descend_put`), so
replacing the file at the end of a path changes nothing on the way to it. What a file
holds does not lead a walk anywhere: on a disk whose files are seen otherwise it goes
the same way (`walkFrom_seen`).
-/

namespace CommitReports.Files

/-- The place that a link's target is followed from. -/
def startOf (cur : Place) (target : String) : Place := if Path.isAbsolute target then [] else cur

/-- Follows segments through directories; gives the links that may still be followed, and the
directory that the segments lead to. -/
def descend (files : Files) : (links : Nat) → Place → List String → Option (Nat × Place)
  | links, cur, [] => some (links, cur)
  | links, cur, s :: rest =>
    if s = "" ∨ s = "." then descend files links cur rest
    else if s = ".." then descend files links cur.dropLast rest
    else if maxNameSize < s.utf8ByteSize then none
    else
      match files.find? (cur ++ [s]) with
      | some .directory => descend files links (cur ++ [s]) rest
      | some (.link target) =>
        match links with
        | 0 => none
        | links + 1 => descend files links (startOf cur target) (segmentsOf target ++ rest)
      | _ => none
  termination_by links _ segments => (links, segments.length)

variable {files : Files} {links left : Nat} {cur place : Place}

/-! ## One step of a walk -/

section Steps

variable {s : String} {rest : List String} (hidle : ¬(s = "" ∨ s = ".")) (hup : ¬s = "..")
  (hsize : ¬maxNameSize < s.utf8ByteSize)

include hidle hup hsize

theorem walkFrom_directory (h : files.find? (cur ++ [s]) = some .directory) :
    files.walkFrom true links cur (s :: rest) = files.walkFrom true links (cur ++ [s]) rest := by
  rw [walkFrom, if_neg hidle, if_neg hup, if_neg hsize, h]

theorem walkFrom_link {target : String} (h : files.find? (cur ++ [s]) = some (.link target)) :
    files.walkFrom true (links + 1) cur (s :: rest) =
      files.walkFrom true links (startOf cur target) (segmentsOf target ++ rest) := by
  rw [walkFrom, if_neg hidle, if_neg hup, if_neg hsize, h]
  simp [startOf]

theorem walkFrom_link_zero {target : String} (h : files.find? (cur ++ [s]) = some (.link target)) :
    files.walkFrom true 0 cur (s :: rest) = .error .tooManyLinks := by
  rw [walkFrom, if_neg hidle, if_neg hup, if_neg hsize, h]
  simp

/-- A walk that does not end at a segment finds a directory or a link there, or no way on. -/
theorem walkFrom_blocked {reached : Reached} (hrest : rest ≠ [])
    (hdir : files.find? (cur ++ [s]) ≠ some .directory)
    (hlink : ∀ target, files.find? (cur ++ [s]) ≠ some (.link target)) :
    files.walkFrom true links cur (s :: rest) ≠ .ok reached := by
  rw [walkFrom, if_neg hidle, if_neg hup, if_neg hsize]
  rcases hfind : files.find? (cur ++ [s]) with _ | ⟨content, executable⟩ | ⟨target⟩ | _
  · simp [hrest]
  · simp [hrest]
  · exact absurd hfind (hlink target)
  · exact absurd hfind hdir

end Steps

/-! ## Walks and descents -/

/-- A walk goes on from where the descent leads to. -/
theorem walkFrom_append {a : List String} (b : List String)
    (h : files.descend links cur a = some (left, place)) :
    files.walkFrom true links cur (a ++ b) = files.walkFrom true left place b := by
  fun_induction descend files links cur a with
  | case1 => cases h; rfl
  | case2 _ _ _ _ hs ih =>
    rw [List.cons_append, walkFrom, if_pos hs]
    exact ih h
  | case3 _ _ _ hs ih =>
    rw [List.cons_append, walkFrom, if_neg hs, if_pos rfl]
    exact ih h
  | case4 => cases h
  | case5 _ _ _ _ hidle hup hsize hfind ih =>
    rw [List.cons_append, walkFrom_directory hidle hup hsize hfind]
    exact ih h
  | case6 => cases h
  | case7 _ _ _ hidle hup hsize _ hfind _ ih =>
    rw [List.cons_append, walkFrom_link hidle hup hsize hfind, ← List.append_assoc]
    exact ih h
  | case8 => cases h

/-- A walk that goes on after some segments has descended along them. -/
theorem exists_descend {a b : List String} {reached : Reached} (hb : b ≠ [])
    (h : files.walkFrom true links cur (a ++ b) = .ok reached) :
    ∃ left place, files.descend links cur a = some (left, place) := by
  fun_induction descend files links cur a with
  | case1 => exact ⟨_, _, rfl⟩
  | case2 _ _ _ _ hs ih =>
    rw [List.cons_append, walkFrom, if_pos hs] at h
    exact ih h
  | case3 _ _ _ hs ih =>
    rw [List.cons_append, walkFrom, if_neg hs, if_pos rfl] at h
    exact ih h
  | case4 _ _ _ _ hidle hup hsize =>
    rw [List.cons_append, walkFrom, if_neg hidle, if_neg hup, if_pos hsize] at h
    cases h
  | case5 _ _ _ _ hidle hup hsize hfind ih =>
    rw [List.cons_append, walkFrom_directory hidle hup hsize hfind] at h
    exact ih h
  | case6 _ _ _ hidle hup hsize _ hfind =>
    rw [List.cons_append, walkFrom_link_zero hidle hup hsize hfind] at h
    cases h
  | case7 _ _ _ hidle hup hsize _ hfind _ ih =>
    rw [List.cons_append, walkFrom_link hidle hup hsize hfind, ← List.append_assoc] at h
    exact ih h
  | case8 _ _ _ _ hidle hup hsize hdir hlink =>
    exact absurd h (walkFrom_blocked hidle hup hsize (by simp [hb]) hdir hlink)

/-- With fewer links a walk ends as it does with more, or the links run out. -/
theorem walkFrom_fewer {fewer : Nat} (hle : fewer ≤ links) (cur : Place) (segments : List String) :
    files.walkFrom true fewer cur segments = files.walkFrom true links cur segments ∨
      files.walkFrom true fewer cur segments = .error .tooManyLinks := by
  fun_induction walkFrom files true links cur segments generalizing fewer with
  | case1 => exact .inl (by rw [walkFrom])
  | case2 _ _ _ _ hs ih =>
    rw [walkFrom, if_pos hs]
    exact ih hle
  | case3 _ _ _ hs ih =>
    rw [walkFrom, if_neg hs, if_pos rfl]
    exact ih hle
  | case4 _ _ _ _ hidle hup hsize =>
    exact .inl (by rw [walkFrom, if_neg hidle, if_neg hup, if_pos hsize])
  | case5 _ _ _ hidle hup hsize hentry =>
    rw [walkFrom, if_neg hidle, if_neg hup, if_neg hsize, hentry]
    exact .inl rfl
  | case6 _ _ _ _ hidle hup hsize hentry hrest =>
    rw [walkFrom, if_neg hidle, if_neg hup, if_neg hsize, hentry]
    exact .inl (if_neg hrest)
  | case7 _ _ _ _ hidle hup hsize hentry ih =>
    rw [walkFrom_directory hidle hup hsize hentry]
    exact ih hle
  | case8 _ _ _ hidle hup hsize _ _ hentry =>
    rw [walkFrom, if_neg hidle, if_neg hup, if_neg hsize, hentry]
    exact .inl rfl
  | case9 _ _ _ _ hidle hup hsize _ _ hentry hrest =>
    rw [walkFrom, if_neg hidle, if_neg hup, if_neg hsize, hentry]
    exact .inl (if_neg hrest)
  | case10 _ _ _ _ _ _ _ _ _ hlast => simp at hlast
  | case11 _ _ _ hidle hup hsize _ hentry =>
    obtain rfl := Nat.le_zero.mp hle
    exact .inr (walkFrom_link_zero hidle hup hsize hentry)
  | case12 _ _ _ hidle hup hsize _ hentry _ _ ih =>
    cases fewer with
    | zero => exact .inr (walkFrom_link_zero hidle hup hsize hentry)
    | succ fewer =>
      rw [walkFrom_link hidle hup hsize hentry]
      exact ih (Nat.le_of_succ_le_succ hle)

/-- A descent along some segments is one along the first of them. -/
theorem descend_prefix {a b : List String}
    (h : files.descend links cur (a ++ b) = some (left, place)) :
    ∃ left' place', files.descend links cur a = some (left', place') := by
  fun_induction descend files links cur a with
  | case1 => exact ⟨_, _, rfl⟩
  | case2 _ _ _ _ hs ih =>
    rw [List.cons_append, descend, if_pos hs] at h
    exact ih h
  | case3 _ _ _ hs ih =>
    rw [List.cons_append, descend, if_neg hs, if_pos rfl] at h
    exact ih h
  | case4 _ _ _ _ hidle hup hsize =>
    rw [List.cons_append, descend, if_neg hidle, if_neg hup, if_pos hsize] at h
    cases h
  | case5 _ _ _ _ hidle hup hsize hfind ih =>
    rw [List.cons_append, descend, if_neg hidle, if_neg hup, if_neg hsize, hfind] at h
    exact ih h
  | case6 _ _ _ hidle hup hsize _ hfind =>
    rw [List.cons_append, descend, if_neg hidle, if_neg hup, if_neg hsize, hfind] at h
    cases h
  | case7 _ _ _ hidle hup hsize _ hfind _ ih =>
    rw [List.cons_append, descend, if_neg hidle, if_neg hup, if_neg hsize, hfind] at h
    simp only [← List.append_assoc] at h
    exact ih h
  | case8 _ _ _ _ hidle hup hsize hdir hlink =>
    rw [List.cons_append, descend, if_neg hidle, if_neg hup, if_neg hsize] at h
    split at h
    next hfind => exact absurd hfind hdir
    next hfind => exact absurd hfind (hlink _)
    next => cases h

/-- A descent takes links and gives none back. -/
theorem left_le_of_descend {segments : List String}
    (h : files.descend links cur segments = some (left, place)) : left ≤ links := by
  fun_induction descend files links cur segments with
  | case1 => cases h; exact Nat.le_refl _
  | case2 _ _ _ _ _ ih => exact ih h
  | case3 _ _ _ _ ih => exact ih h
  | case4 => cases h
  | case5 _ _ _ _ _ _ _ _ ih => exact ih h
  | case6 => cases h
  | case7 _ _ _ _ _ _ _ _ _ ih => exact Nat.le_succ_of_le (ih h)
  | case8 => cases h

/-- A walk along a descent comes to its directory. -/
theorem walkFrom_of_descend_self {segments : List String}
    (h : files.descend links cur segments = some (left, place)) :
    files.walkFrom true links cur segments = .ok (.entry place .directory) := by
  have hwalk := walkFrom_append [] h
  rwa [List.append_nil, walkFrom] at hwalk

/-- A walk that comes to a directory has descended to it. -/
theorem descend_of_walkFrom {segments : List String}
    (h : files.walkFrom true links cur segments = .ok (.entry place .directory)) :
    ∃ left, files.descend links cur segments = some (left, place) := by
  fun_induction descend files links cur segments with
  | case1 =>
    rw [walkFrom] at h
    cases h
    exact ⟨_, rfl⟩
  | case2 _ _ _ _ hs ih =>
    rw [walkFrom, if_pos hs] at h
    exact ih h
  | case3 _ _ _ hs ih =>
    rw [walkFrom, if_neg hs, if_pos rfl] at h
    exact ih h
  | case4 _ _ _ _ hidle hup hsize =>
    rw [walkFrom, if_neg hidle, if_neg hup, if_pos hsize] at h
    cases h
  | case5 _ _ _ _ hidle hup hsize hfind ih =>
    rw [walkFrom_directory hidle hup hsize hfind] at h
    exact ih h
  | case6 _ _ _ hidle hup hsize _ hfind =>
    rw [walkFrom_link_zero hidle hup hsize hfind] at h
    cases h
  | case7 _ _ _ hidle hup hsize _ hfind _ ih =>
    rw [walkFrom_link hidle hup hsize hfind] at h
    exact ih h
  | case8 _ cur s rest hidle hup hsize hdir hlink =>
    rw [walkFrom, if_neg hidle, if_neg hup, if_neg hsize] at h
    rcases hfind : files.find? (cur ++ [s]) with _ | ⟨content, executable⟩ | ⟨target⟩ | _
    · by_cases hrest : rest = [] <;> simp [hfind, hrest] at h
    · by_cases hrest : rest = [] <;> simp [hfind, hrest] at h
    · exact absurd hfind (hlink target)
    · exact absurd hfind hdir

/-- What a walk leads to besides a directory, no descent passes. -/
theorem not_descend_of_walkFrom {links' : Nat} {a rest : List String} {reached : Reached}
    (hwalk : files.walkFrom true links' cur a = .ok reached)
    (hreached : ∀ place, reached ≠ .entry place .directory) :
    files.descend links cur (a ++ rest) = none := by
  rcases hdescend : files.descend links cur (a ++ rest) with _ | ⟨_, _⟩
  · rfl
  · exfalso
    obtain ⟨left, place, hprefix⟩ := descend_prefix hdescend
    have hdirectory := walkFrom_of_descend_self hprefix
    -- Whichever of the two has more links, both end, so both end alike.
    have hsame : files.walkFrom true links' cur a = files.walkFrom true links cur a := by
      rcases Nat.le_total links' links with hle | hle
      · exact (walkFrom_fewer hle cur a).resolve_right (by rw [hwalk]; nofun)
      · exact ((walkFrom_fewer hle cur a).resolve_right (by rw [hdirectory]; nofun)).symm
    rw [hwalk, hdirectory] at hsame
    cases hsame
    exact hreached place rfl

/-! ## Descents on a changed disk -/

theorem ne_nil_of_free (h : files.find? place = none) : place ≠ [] := by
  rintro rfl
  simp [find?] at h

/-- A file opens no way that there was not before. -/
theorem descend_of_put_file {place' : Place} {content : ByteArray} {executable : Bool}
    {segments : List String} (hne : place' ≠ [])
    (h : (files.put place' (.file content executable)).descend links cur segments =
      some (left, place)) :
    files.descend links cur segments = some (left, place) := by
  -- Wherever the changed disk holds no file, it holds what it held before.
  have hother : ∀ other, (files.put place' (.file content executable)).find? other ≠
      some (.file content executable) →
      (files.put place' (.file content executable)).find? other = files.find? other := by
    intro other hfile
    apply find?_put_of_ne
    rintro rfl
    exact hfile (find?_put_self files _ hne)
  fun_induction descend (files.put place' (.file content executable)) links cur segments with
  | case1 => cases h; rw [descend]
  | case2 _ _ _ _ hs ih =>
    rw [descend, if_pos hs]
    exact ih h
  | case3 _ _ _ hs ih =>
    rw [descend, if_neg hs, if_pos rfl]
    exact ih h
  | case4 => cases h
  | case5 _ _ _ _ hidle hup hsize hfind ih =>
    rw [hother _ (by rw [hfind]; simp)] at hfind
    rw [descend, if_neg hidle, if_neg hup, if_neg hsize, hfind]
    exact ih h
  | case6 => cases h
  | case7 _ _ _ hidle hup hsize _ hfind _ ih =>
    rw [hother _ (by rw [hfind]; simp)] at hfind
    rw [descend, if_neg hidle, if_neg hup, if_neg hsize, hfind]
    exact ih h
  | case8 => cases h

/-- Replacing what is no directory leaves a descent as it is, unless the descent goes through a
link at that very place. -/
theorem descend_put {directory : Place} {name : String} (entry : Entry) {segments : List String}
    (hdir : files.find? (directory ++ [name]) ≠ some .directory)
    (h : files.descend links cur segments = some (left, place)) :
    (files.put (directory ++ [name]) entry).descend links cur segments = some (left, place) ∨
      ∃ target rest before, files.find? (directory ++ [name]) = some (.link target) ∧
        files.descend before (startOf directory target) (segmentsOf target ++ rest) =
          some (left, place) := by
  fun_induction descend files links cur segments with
  | case1 => cases h; exact .inl (by rw [descend])
  | case2 _ _ _ _ hs ih =>
    rw [descend, if_pos hs]
    exact ih h
  | case3 _ _ _ hs ih =>
    rw [descend, if_neg hs, if_pos rfl]
    exact ih h
  | case4 => cases h
  | case5 _ cur s _ hidle hup hsize hfind ih =>
    have hne : cur ++ [s] ≠ directory ++ [name] := fun heq => hdir (heq ▸ hfind)
    rw [descend, if_neg hidle, if_neg hup, if_neg hsize, find?_put_of_ne _ _ hne, hfind]
    exact ih h
  | case6 => cases h
  | case7 cur s rest hidle hup hsize target hfind links ih =>
    by_cases heq : cur ++ [s] = directory ++ [name]
    · -- The link stands at the place in question: the descent does go through it.
      obtain ⟨rfl, -⟩ := List.append_inj' heq rfl
      exact .inr ⟨target, rest, links, heq ▸ hfind, h⟩
    · rw [descend, if_neg hidle, if_neg hup, if_neg hsize, find?_put_of_ne _ _ heq, hfind]
      exact ih h
  | case8 => cases h

/-! ## Other views of the disk -/

/-- What a walk comes to, with entries seen otherwise. -/
def Reached.seen (see : Place → Entry → Entry) : Reached → Reached
  | .entry place found => .entry place (see place found)
  | .vacant place => .vacant place

/-- Directories and links are seen as they are, and files as files. -/
structure Faithful (see : Place → Entry → Entry) : Prop where
  directory : ∀ place, see place .directory = .directory
  link : ∀ place target, see place (.link target) = .link target
  file : ∀ place content executable,
    ∃ shown, see place (.file content executable) = .file shown executable

/-- A walk is led by directories and links: where these are seen as they are, it goes the same way,
and comes to what is seen there. -/
theorem walkFrom_seen {see : Place → Entry → Entry} {view : Files} (hsee : Faithful see)
    (hview : ∀ place, view.find? place = (files.find? place).map (see place)) (follow : Bool)
    (segments : List String) :
    view.walkFrom follow links cur segments =
      (files.walkFrom follow links cur segments).map (Reached.seen see) := by
  fun_induction walkFrom files follow links cur segments with
  | case1 => rw [walkFrom, Except.map, Reached.seen, hsee.directory]
  | case2 _ _ _ _ hs ih => rw [walkFrom, if_pos hs, ih]
  | case3 _ _ _ hs ih => rw [walkFrom, if_neg hs, if_pos rfl, ih]
  | case4 _ _ _ _ hidle hup hsize => rw [walkFrom, if_neg hidle, if_neg hup, if_pos hsize]; rfl
  | case5 _ _ _ hidle hup hsize hentry =>
    rw [walkFrom, if_neg hidle, if_neg hup, if_neg hsize, hview, hentry]
    exact if_pos rfl
  | case6 _ _ _ _ hidle hup hsize hentry hrest =>
    rw [walkFrom, if_neg hidle, if_neg hup, if_neg hsize, hview, hentry]
    exact if_neg hrest
  | case7 _ _ _ _ hidle hup hsize hentry ih =>
    rw [walkFrom, if_neg hidle, if_neg hup, if_neg hsize, hview, hentry, Option.map_some,
      hsee.directory]
    exact ih
  | case8 _ cur s hidle hup hsize content executable hentry =>
    obtain ⟨shown, hshown⟩ := hsee.file (cur ++ [s]) content executable
    rw [walkFrom, if_neg hidle, if_neg hup, if_neg hsize, hview, hentry, Option.map_some, hshown,
      Except.map, Reached.seen, hshown]
    rfl
  | case9 _ cur s _ hidle hup hsize content executable hentry hrest =>
    obtain ⟨shown, hshown⟩ := hsee.file (cur ++ [s]) content executable
    rw [walkFrom, if_neg hidle, if_neg hup, if_neg hsize, hview, hentry, Option.map_some, hshown]
    exact if_neg hrest
  | case10 _ _ _ _ hidle hup hsize _ hentry hlast =>
    rw [walkFrom, if_neg hidle, if_neg hup, if_neg hsize, hview, hentry, Option.map_some, hsee.link,
      Except.map, Reached.seen, hsee.link]
    exact if_pos hlast
  | case11 _ _ _ hidle hup hsize _ hentry hlast =>
    rw [walkFrom, if_neg hidle, if_neg hup, if_neg hsize, hview, hentry, Option.map_some, hsee.link]
    exact if_neg hlast
  | case12 _ _ _ hidle hup hsize _ hentry hlast _ ih =>
    rw [walkFrom, if_neg hidle, if_neg hup, if_neg hsize, hview, hentry, Option.map_some, hsee.link]
    exact (if_neg hlast).trans ih

/-- What the disk refuses has nothing to do with where a path leads. -/
theorem walkFrom_refusals (refusals : Refusals) (follow : Bool) (segments : List String) :
    { files with refusals }.walkFrom follow links cur segments =
      files.walkFrom follow links cur segments := by
  have hsee : Faithful fun _ entry => entry :=
    ⟨fun _ => rfl, fun _ _ => rfl, fun _ content _ => ⟨content, rfl⟩⟩
  have hview : ∀ place, { files with refusals }.find? place = (files.find? place).map id :=
    fun _ => Option.map_id'.symm
  rw [walkFrom_seen hsee hview]
  cases files.walkFrom follow links cur segments with
  | error e => rfl
  | ok reached => cases reached <;> rfl

/-- What the disk refuses changes nothing of what is read. -/
theorem readText_refusals (refusals : Refusals) (path : String) :
    { files with refusals }.readText path = files.readText path := by
  unfold readText read walk
  simp only [walkFrom_refusals]

end CommitReports.Files
