import CommitReports.Proofs.Files.Replacement

/-!
# Contents that nobody looks at

A disk can be seen without what some of its files hold: in `Files.masked` the files at
hidden places have no content. What does not look at these contents comes out the same on
the masked disk, and what only passes by them changes the masked disk as it changes the
disk itself. Following a path is of the first kind (`directoryAt_masked`,
`renameTarget_masked`), putting and erasing are of the second. So is a replacement, even
if all contents are hidden, the new one included (`replace_masked`).

Two disks that cannot be told apart when masked are *alike* (`Files.Alike`). They stay so
as long as the same is done to both. If a file is replaced on both, with whatever content,
both replacements succeed or fail alike (`Alike.replace`), at one place
(`Alike.replace_same_place`).
-/

namespace CommitReports

/-- An entry, for a file without its content. -/
def Entry.emptied : Entry → Entry
  | .file _ executable => .file .empty executable
  | entry => entry

/-- An entry as it is seen at a place that may be hidden. -/
def Entry.masked (hidden : Place → Bool) (place : Place) (entry : Entry) : Entry :=
  if hidden place then entry.emptied else entry

namespace Entry

variable {hidden : Place → Bool} {place : Place}

theorem masked_of_shown (entry : Entry) (h : hidden place = false) :
    entry.masked hidden place = entry := by
  rw [masked, h, if_neg Bool.false_ne_true]

@[simp] theorem masked_directory : directory.masked hidden place = directory := ite_self _

@[simp] theorem masked_link (target : String) : (link target).masked hidden place = link target :=
  ite_self _

@[simp] theorem isDirectory_masked (entry : Entry) :
    (entry.masked hidden place).isDirectory = entry.isDirectory := by
  unfold masked
  split
  · cases entry <;> rfl
  · rfl

/-- A file is seen as a file. -/
theorem exists_masked_file (hidden : Place → Bool) (place : Place) (content : ByteArray)
    (executable : Bool) : ∃ seen, (file content executable).masked hidden place = file seen executable := by
  unfold masked
  split
  · exact ⟨.empty, rfl⟩
  · exact ⟨content, rfl⟩

end Entry

namespace Files

variable {hidden : Place → Bool} {files files' : Files}

/-- The disk without the contents of the files at hidden places. -/
def masked (hidden : Place → Bool) (files : Files) : Files :=
  { files with
    entries := files.entries.map fun (place, entry) => (place, entry.masked hidden place) }

/-- The disks differ at most in the contents of files at hidden places. -/
def Alike (hidden : Place → Bool) (files files' : Files) : Prop :=
  files'.masked hidden = files.masked hidden

@[simp] theorem here_masked (files : Files) : (files.masked hidden).here = files.here := rfl

@[simp] theorem refusals_masked (files : Files) :
    (files.masked hidden).refusals = files.refusals := rfl

/-! ## What stands where -/

theorem find?_masked (files : Files) (place : Place) :
    (files.masked hidden).find? place = (files.find? place).map (Entry.masked hidden place) := by
  have hlookup : ∀ entries : List (Place × Entry),
      (entries.map fun (place, entry) => (place, entry.masked hidden place)).lookup place =
        (entries.lookup place).map (Entry.masked hidden place) := by
    intro entries
    induction entries with
    | nil => rfl
    | cons first rest ih =>
      obtain ⟨other, entry⟩ := first
      rw [List.map_cons, List.lookup_cons, List.lookup_cons, ih]
      cases hplace : place == other with
      | false => rfl
      | true =>
        cases eq_of_beq hplace
        rfl
  unfold find?
  split
  · rw [Option.map_some, Entry.masked_directory]
  · exact hlookup files.entries

theorem isNone_find?_masked (files : Files) (place : Place) :
    ((files.masked hidden).find? place).isNone = (files.find? place).isNone := by
  rw [find?_masked, Option.isNone_map]

theorem below_masked (files : Files) (place : Place) :
    (files.masked hidden).below place =
      (files.below place).map fun (names, entry) => (names, entry.masked hidden (place ++ names)) := by
  unfold below masked
  rw [List.filterMap_map, List.map_filterMap]
  refine List.filterMap_congr fun x _ => ?_
  obtain ⟨other, entry⟩ := x
  simp only [Function.comp_apply]
  split
  next hbelow =>
    have hsplit : place ++ other.drop place.length = other := by
      nth_rewrite 1 [← hbelow.2]
      exact List.take_append_drop _ _
    rw [Option.map_some, hsplit]
  next => rfl

theorem masked_put (files : Files) (place : Place) (entry : Entry) :
    (files.put place entry).masked hidden =
      (files.masked hidden).put place (entry.masked hidden place) := by
  simp only [masked, put, List.map_cons, List.filter_map]
  rfl

theorem masked_erase (files : Files) (place : Place) :
    (files.erase place).masked hidden = (files.masked hidden).erase place := by
  simp only [masked, erase, List.filter_map]
  rfl

/-! ## Following paths -/

/-- What a path leads to, as it is seen. -/
def Reached.masked (hidden : Place → Bool) : Reached → Reached
  | .entry place found => .entry place (found.masked hidden place)
  | .vacant place => .vacant place

theorem walkFrom_masked (follow : Bool) (links : Nat) (cur : Place) (segments : List String) :
    (files.masked hidden).walkFrom follow links cur segments =
      (files.walkFrom follow links cur segments).map (Reached.masked hidden) := by
  have hsee : Faithful (Entry.masked hidden) :=
    ⟨fun _ => Entry.masked_directory, fun _ => Entry.masked_link, Entry.exists_masked_file hidden⟩
  have hseen : Reached.seen (Entry.masked hidden) = Reached.masked hidden := by
    funext reached
    cases reached <;> rfl
  rw [walkFrom_seen hsee (find?_masked files), hseen]

theorem walk_masked (follow : Bool) (path : String) :
    (files.masked hidden).walk follow path =
      (files.walk follow path).map (Reached.masked hidden) := by
  unfold walk
  split
  · rfl
  split
  · rfl
  split
  · rfl
  exact walkFrom_masked ..

@[simp] theorem directoryAt_masked (files : Files) (path : String) :
    (files.masked hidden).directoryAt path = files.directoryAt path := by
  unfold directoryAt
  rw [walk_masked]
  rcases files.walk true path with e | ⟨place, ⟨content, executable⟩ | ⟨target⟩ | _⟩ | place
  · rfl
  · obtain ⟨seen, hseen⟩ := Entry.exists_masked_file hidden place content executable
    simp only [Except.map, Reached.masked, hseen]
  · simp only [Except.map, Reached.masked, Entry.masked_link]
  · simp only [Except.map, Reached.masked, Entry.masked_directory]
  · rfl

@[simp] theorem renameTarget_masked (files : Files) (path : String) :
    (files.masked hidden).renameTarget path = files.renameTarget path := by
  unfold renameTarget
  split
  · rfl
  split
  · rfl
  split
  · rfl
  dsimp only
  split
  next => rfl
  next name above _ =>
    rw [walkFrom_masked, here_masked]
    rcases files.walkFrom true maxLinks (if Path.isAbsolute path then [] else files.here)
        (above.reverse ++ [""]) with e | ⟨place, ⟨content, executable⟩ | ⟨target⟩ | _⟩ | place
    · rfl
    · obtain ⟨seen, hseen⟩ := Entry.exists_masked_file hidden place content executable
      simp only [Except.map, Reached.masked, hseen]
    · simp only [Except.map, Reached.masked, Entry.masked_link]
    · simp only [Except.map, Reached.masked, Entry.masked_directory, find?_masked]
      -- Only whether a directory stands at the end matters.
      rcases files.find? (place ++ [name]) with _ | ⟨content, executable⟩ | ⟨target⟩ | _
      · rfl
      · obtain ⟨seen, hseen⟩ :=
          Entry.exists_masked_file hidden (place ++ [name]) content executable
        simp only [Option.map_some, hseen]
      · simp only [Option.map_some, Entry.masked_link]
      · simp only [Option.map_some, Entry.masked_directory]
    · rfl

@[simp] theorem freshName_masked (files : Files) (directory : Place) (own : String) :
    (files.masked hidden).freshName directory own = files.freshName directory own := by
  have hlength : (files.masked hidden).entries.length = files.entries.length := List.length_map _
  unfold freshName
  simp only [hlength, isNone_find?_masked]

/-! ## Disks that are alike -/

namespace Alike

theorem refusals (h : files.Alike hidden files') : files'.refusals = files.refusals := by
  have hsame : (files'.masked hidden).refusals = (files.masked hidden).refusals :=
    congrArg Files.refusals h
  exact hsame

/-- What does not look at hidden contents is the same on disks that are alike. -/
theorem eq_of_masked {α : Type} {f : Files → α} (h : files.Alike hidden files')
    (hf : ∀ files : Files, f (files.masked hidden) = f files) : f files' = f files := by
  rw [← hf files', h, hf]

/-- More may be hidden. -/
theorem all (h : files.Alike hidden files') : files.Alike (fun _ => true) files' := by
  have hmasked : ∀ files : Files,
      (files.masked hidden).masked (fun _ => true) = files.masked fun _ => true := by
    intro files
    simp only [masked, List.map_map]
    congr 1
    refine List.map_congr_left fun x _ => Prod.ext rfl ?_
    obtain ⟨place, entry⟩ := x
    simp only [Function.comp_apply, Entry.masked, if_true]
    split
    · cases entry <;> rfl
    · rfl
  unfold Alike
  rw [← hmasked files', h, hmasked]

/-- What is stored at a hidden place is not seen. -/
theorem store {place : Place} (hplace : hidden place = true) (files : Files)
    (content content' : ByteArray) :
    (files.store place content).Alike hidden (files.store place content') := by
  obtain ⟨mode, hstore⟩ := files.exists_store_eq_put place
  unfold Alike
  rw [hstore, hstore, masked_put, masked_put, Entry.masked, Entry.masked, hplace]
  rfl

end Alike

end Files

/-! ## Replacing a file -/

/-- A step of a replacement without the bytes that it adds. -/
def ReplacementStep.emptied : ReplacementStep → ReplacementStep
  | .append place _ => .append place .empty
  | step => step

/-- A replacement without the new content. -/
def Replacement.emptied (r : Replacement) : Replacement := { r with content := .empty }

/-- No content has a part in what a step comes to, where files take any number of bytes. -/
theorem ReplacementStep.perform_emptied {files : Files} (hroom : files.refusals.append = none)
    (step : ReplacementStep) :
    step.emptied.perform (files.masked fun _ => true) =
      ((step.perform files).1, (step.perform files).2.masked fun _ => true) := by
  cases step with
  | create place =>
    show (create place).perform (files.masked fun _ => true) = _
    rw [perform, perform, Files.refusals_masked]
    cases files.refusals.create with
    | some e => rfl
    | none =>
      dsimp only
      rw [Files.masked_put]
      rfl
  | append place bytes =>
    rw [emptied, perform, perform, Files.refusals_masked, hroom]
    dsimp only
    rw [Files.extend, Files.extend, Files.find?_masked]
    rcases files.find? place with _ | ⟨content, executable⟩ | ⟨target⟩ | _
    · rfl
    · simp only [Option.map_some, Entry.masked, Entry.emptied, if_true, Files.masked_put,
        ByteArray.append_empty]
    · simp only [Option.map_some, Entry.masked_link]
    · simp only [Option.map_some, Entry.masked_directory]
  | sync place => rfl
  | rename source path =>
    show (rename source path).perform (files.masked fun _ => true) = _
    rw [perform, perform, Files.renameTarget_masked, Files.refusals_masked]
    cases files.renameTarget path with
    | error e => rfl
    | ok target =>
      cases files.refusals.rename with
      | some e => rfl
      | none =>
        dsimp only
        rw [Files.move, Files.move, Files.find?_masked]
        cases files.find? source with
        | none => rfl
        | some entry =>
          simp only [Option.map_some, Files.masked_put, Files.masked_erase]
          rfl

theorem ReplacementStep.refusals_perform (files : Files) (step : ReplacementStep) :
    (step.perform files).2.refusals = files.refusals := by
  cases step with
  | create place =>
    rw [perform]
    split <;> rfl
  | append place bytes =>
    have hextend : ∀ bytes : ByteArray, (files.extend place bytes).refusals = files.refusals := by
      intro bytes
      rw [Files.extend]
      split <;> rfl
    rw [perform]
    split
    · split <;> exact hextend _
    · exact hextend _
  | sync place => rfl
  | rename source path =>
    rw [perform]
    split
    · rfl
    split
    · rfl
    dsimp only
    rw [Files.move]
    split <;> rfl

namespace Replacement

theorem performSteps_emptied (r : Replacement) (steps : List ReplacementStep) :
    ∀ {files : Files}, files.refusals.append = none →
      r.emptied.performSteps (files.masked fun _ => true) (steps.map ReplacementStep.emptied) =
        ((r.performSteps files steps).1, (r.performSteps files steps).2.masked fun _ => true) := by
  induction steps with
  | nil => exact fun _ => rfl
  | cons step rest ih =>
    intro files hroom
    have hblamed : r.emptied.blamed step.emptied = r.blamed step := by cases step <;> rfl
    have hrefusals := step.refusals_perform files
    rw [List.map_cons, performSteps, performSteps, step.perform_emptied hroom]
    rcases hstep : step.perform files with ⟨_ | e, after⟩ <;> rw [hstep] at hrefusals
    · exact ih (hrefusals ▸ hroom)
    · simp only [hblamed]

theorem perform_emptied {files : Files} (r : Replacement) (hroom : files.refusals.append = none) :
    r.emptied.perform (files.masked fun _ => true) =
      ((r.perform files).1, (r.perform files).2.masked fun _ => true) := by
  have hsteps : r.emptied.steps = r.steps.map ReplacementStep.emptied := rfl
  rw [perform, perform, hsteps, r.performSteps_emptied r.steps hroom]
  rcases r.performSteps files r.steps with ⟨⟨e⟩ | ⟨⟨⟩⟩, after⟩
  · simp only [Files.masked_erase]
    rfl
  · rfl

end Replacement

namespace Files

variable {hidden : Place → Bool} {files files' : Files}

/-- **No content has a part in what a replacement comes to**, where files take any number of bytes. -/
theorem replace_masked (hroom : files.refusals.append = none) (path : String) (content : ByteArray) :
    (files.masked fun _ => true).replace path .empty =
      ((files.replace path content).1, (files.replace path content).2.masked fun _ => true) := by
  rw [replace, replace, replacement, replacement]
  simp only [directoryAt_masked, freshName_masked]
  cases files.directoryAt (Path.directory path) with
  | error e => rfl
  | ok place =>
    let r : Replacement :=
      { directory := Path.directory path
        draft := place ++ [files.freshName place ((segmentsOf path).getLast?.getD "")], path, content }
    exact r.perform_emptied hroom

/-- On disks that are alike a file is replaced, or not, for the same reasons, whatever it is replaced
by, and the disks stay alike but for contents. -/
theorem Alike.replace (h : files.Alike hidden files') (hroom : files.refusals.append = none)
    (path : String) (content content' : ByteArray) :
    (files'.replace path content').1 = (files.replace path content).1 ∧
      (files.replace path content).2.Alike (fun _ => true) (files'.replace path content').2 := by
  have hroom' : files'.refusals.append = none := by rw [h.refusals, hroom]
  have hsame := replace_masked hroom' path content'
  rw [h.all, replace_masked hroom path content] at hsame
  exact ⟨(congrArg Prod.fst hsame).symm, (congrArg Prod.snd hsame).symm⟩

/-- Files that are replaced on disks that are alike come to stand at the same place. -/
theorem Alike.replace_same_place (h : files.Alike hidden files') {path : String}
    {content content' : ByteArray} {after after' : Files}
    (hreplace : files.replace path content = (.ok (), after))
    (hreplace' : files'.replace path content' = (.ok (), after')) :
    ∃ place, after.find? place = some (.file content false) ∧
      after'.find? place = some (.file content' false) := by
  obtain ⟨-, -, target, htarget, rfl⟩ := replace_eq_ok hreplace
  obtain ⟨-, -, target', htarget', rfl⟩ := replace_eq_ok hreplace'
  have hsame := h.eq_of_masked (f := fun files => files.renameTarget path) fun files =>
    files.renameTarget_masked path
  cases htarget.symm.trans (hsame.symm.trans htarget')
  have hne : target ≠ [] := by
    obtain ⟨-, _, _, _, _, -, -, -, -, rfl⟩ := renameTarget_eq_ok_iff.mp htarget
    simp
  exact ⟨target, find?_put_self _ _ hne, find?_put_self _ _ hne⟩

end Files

end CommitReports
