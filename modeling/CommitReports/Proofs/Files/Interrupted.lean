import CommitReports.Proofs.Files.Directory
import CommitReports.Proofs.Files.Replacement

/-!
# Replacements that are interrupted

The program may stop at any moment of a replacement: between two of its steps, while
bytes are being written, or after a step that was refused and before the draft is
removed. `Interrupted` lists the states in which it then leaves the disk.
`Replacement.Stage` says what the disk holds before each step; a step leads to the next
stage or is refused (`Stage.perform`), and so every such state is one of three: the disk
as it was, a draft besides, or the new file in the place of the old one
(`Replacement.leaves_of_interrupted`).

A draft stands where nothing stood, under a name that is not the path's own. So no
walk that led to a file comes upon it (`walk_put_cases`), and the path names what it
named before (`kept_of_draft`). The rename is the one step that the path sees; after it
the path reads as the new content, unless the way to its directory leads through the
very entry that was replaced (`replaced_of_put`).
-/

namespace CommitReports

open Files

/-! ## States on the way -/

/-- The disk as it is found if the program stops in the course of some steps. -/
inductive Interrupted : Files → List ReplacementStep → Files → Prop where
  /-- Before the next step, or after the last one. -/
  | between (files : Files) (steps : List ReplacementStep) : Interrupted files steps files
  /-- When the first bytes are written. -/
  | amid (files : Files) (place : Place) (bytes : ByteArray) (written : Nat)
      (rest : List ReplacementStep) :
      Interrupted files (.append place bytes :: rest) (files.extend place (bytes.extract 0 written))
  /-- After a step that was refused. -/
  | refused {files now : Files} {step : ReplacementStep} {e : SystemError}
      (rest : List ReplacementStep) :
      step.perform files = (some e, now) → Interrupted files (step :: rest) now
  /-- Further on. -/
  | later {files next now : Files} {step : ReplacementStep} {rest : List ReplacementStep} :
      step.perform files = (none, next) → Interrupted next rest now →
        Interrupted files (step :: rest) now

/-- The end of the steps, be it after the last or where one is refused, is one such state. -/
theorem Interrupted.performSteps (r : Replacement) (steps : List ReplacementStep) :
    ∀ files : Files, Interrupted files steps (r.performSteps files steps).2 := by
  induction steps with
  | nil => exact fun files => .between files []
  | cons step rest ih =>
    intro files
    rcases hstep : step.perform files with ⟨_ | e, next⟩
    · rw [r.performSteps_made rest hstep]
      exact .later hstep (ih next)
    · rw [r.performSteps_refused rest hstep]
      exact .refused rest hstep

namespace Replacement

variable {r : Replacement} {files now : Files}

theorem steps_eq (r : Replacement) :
    r.steps = [.create r.draft, .append r.draft r.content, .sync r.draft, .rename r.draft r.path] :=
  rfl

/-- What the disk holds when some steps of a replacement are still to be made. -/
inductive Stage (r : Replacement) (files : Files) : List ReplacementStep → Files → Prop where
  | begun : Stage r files r.steps files
  | created : Stage r files [.append r.draft r.content, .sync r.draft, .rename r.draft r.path]
      (files.put r.draft (.file .empty false))
  | written : Stage r files [.sync r.draft, .rename r.draft r.path]
      (files.put r.draft (.file r.content false))
  | synced : Stage r files [.rename r.draft r.path] (files.put r.draft (.file r.content false))
  | renamed {target : Place} : files.renameTarget r.path = .ok target →
      Stage r files [] (files.put target (.file r.content false))

/-- What a replacement that was interrupted has left on the disk. -/
inductive Leaves (r : Replacement) (files : Files) : Files → Prop where
  | nothing : Leaves r files files
  | draft (kept : ByteArray) : Leaves r files (files.put r.draft (.file kept false))
  | replaced {target : Place} : files.renameTarget r.path = .ok target →
      Leaves r files (files.put target (.file r.content false))

theorem Stage.leaves {steps : List ReplacementStep} (h : r.Stage files steps now) :
    r.Leaves files now := by
  cases h with
  | begun => exact .nothing
  | created => exact .draft _
  | written => exact .draft _
  | synced => exact .draft _
  | renamed htarget => exact .replaced htarget

/-- A step leads to the next stage; one that is refused leaves at most a draft. -/
theorem Stage.perform {step : ReplacementStep} {rest : List ReplacementStep}
    (hfree : files.find? r.draft = none) (h : r.Stage files (step :: rest) now) :
    match step.perform now with
    | (none, next) => r.Stage files rest next
    | (some _, next) => r.Leaves files next := by
  generalize hall : step :: rest = steps at h
  cases h with
  | begun =>
    obtain ⟨rfl, rfl⟩ := List.cons.inj (hall.trans r.steps_eq)
    rw [ReplacementStep.perform]
    cases files.refusals.create with
    | none => exact .created
    | some e => exact .nothing
  | created =>
    obtain ⟨rfl, rfl⟩ := List.cons.inj hall
    obtain ⟨refusal, kept, happend, -, hkept⟩ :=
      perform_append files r.draft r.content (ne_nil_of_free hfree)
    rw [happend]
    cases refusal with
    | none =>
      obtain rfl := hkept rfl
      exact .written
    | some e => exact .draft kept
  | written =>
    obtain ⟨rfl, rfl⟩ := List.cons.inj hall
    have hsync : (ReplacementStep.sync r.draft).perform
        (files.put r.draft (.file r.content false)) =
          (files.refusals.sync, files.put r.draft (.file r.content false)) := rfl
    rw [hsync]
    cases files.refusals.sync with
    | none => exact .synced
    | some e => exact .draft _
  | synced =>
    obtain ⟨rfl, rfl⟩ := List.cons.inj hall
    obtain ⟨e, hrename, -⟩ | ⟨target, -, htarget, hrename⟩ := perform_rename r.path r.content hfree
    · rw [hrename]
      exact .draft _
    · rw [hrename]
      exact .renamed htarget
  | renamed => cases hall

/-- **However far a replacement has come**, the disk is as it was, or has a draft besides, or the new
file is where the path leads to. -/
theorem leaves_of_interrupted {steps : List ReplacementStep} {before : Files}
    (hfree : files.find? r.draft = none) (hstage : r.Stage files steps before)
    (h : Interrupted before steps now) : r.Leaves files now := by
  induction h with
  | between => exact hstage.leaves
  | amid before place bytes written rest =>
    cases hstage with
    | created =>
      rw [extend_put _ _ _ (ne_nil_of_free hfree)]
      exact .draft _
  | refused rest hstep =>
    have hperform := hstage.perform hfree
    rw [hstep] at hperform
    exact hperform
  | later hstep _ ih =>
    have hperform := hstage.perform hfree
    rw [hstep] at hperform
    exact ih hperform

end Replacement

namespace Files

variable {files now : Files} {links : Nat} {cur draft : Place} {content : ByteArray}
  {executable : Bool}

/-! ## A draft that no path comes upon -/

/-- A file where nothing stood is seen by a walk that ended there, and by one that failed there. -/
theorem walkFrom_put_cases (follow : Bool) (segments : List String)
    (hfree : files.find? draft = none) :
    let now := files.put draft (.file content executable)
    now.walkFrom follow links cur segments = files.walkFrom follow links cur segments ∨
      files.walkFrom follow links cur segments = .ok (.vacant draft) ∧
        now.walkFrom follow links cur segments = .ok (.entry draft (.file content executable)) ∨
      files.walkFrom follow links cur segments = .error .notFound ∧
        now.walkFrom follow links cur segments = .error .notDirectory := by
  intro now
  have hself : now.find? draft = some (.file content executable) :=
    find?_put_self files _ (ne_nil_of_free hfree)
  have hother : ∀ {place}, files.find? place ≠ none → now.find? place = files.find? place := by
    intro place hplace
    apply find?_put_of_ne
    rintro rfl
    exact hplace hfree
  fun_induction walkFrom files follow links cur segments with
  | case1 => exact .inl (by rw [walkFrom])
  | case2 _ _ _ _ hs ih =>
    rw [walkFrom, if_pos hs]
    exact ih
  | case3 _ _ _ hs ih =>
    rw [walkFrom, if_neg hs, if_pos rfl]
    exact ih
  | case4 _ _ _ _ hidle hup hsize =>
    rw [walkFrom, if_neg hidle, if_neg hup, if_pos hsize]
    exact .inl rfl
  | case5 _ cur s hidle hup hsize hentry =>
    rw [walkFrom, if_neg hidle, if_neg hup, if_neg hsize]
    by_cases hdraft : cur ++ [s] = draft
    · rw [hdraft, hself]
      exact .inr (.inl ⟨rfl, rfl⟩)
    · rw [find?_put_of_ne _ _ hdraft, hentry]
      exact .inl rfl
  | case6 _ cur s _ hidle hup hsize hentry hrest =>
    rw [walkFrom, if_neg hidle, if_neg hup, if_neg hsize]
    by_cases hdraft : cur ++ [s] = draft
    · rw [hdraft, hself]
      exact .inr (.inr ⟨rfl, if_neg hrest⟩)
    · rw [find?_put_of_ne _ _ hdraft, hentry]
      exact .inl (if_neg hrest)
  | case7 _ _ _ _ hidle hup hsize hentry ih =>
    rw [walkFrom, if_neg hidle, if_neg hup, if_neg hsize, hother (by simp [hentry]), hentry]
    exact ih
  | case8 _ _ _ hidle hup hsize _ _ hentry =>
    rw [walkFrom, if_neg hidle, if_neg hup, if_neg hsize, hother (by simp [hentry]), hentry]
    exact .inl rfl
  | case9 _ _ _ _ hidle hup hsize _ _ hentry hrest =>
    rw [walkFrom, if_neg hidle, if_neg hup, if_neg hsize, hother (by simp [hentry]), hentry]
    exact .inl (if_neg hrest)
  | case10 _ _ _ _ hidle hup hsize _ hentry hlast =>
    rw [walkFrom, if_neg hidle, if_neg hup, if_neg hsize, hother (by simp [hentry]), hentry]
    exact .inl (if_pos hlast)
  | case11 _ _ _ hidle hup hsize _ hentry hlast =>
    rw [walkFrom, if_neg hidle, if_neg hup, if_neg hsize, hother (by simp [hentry]), hentry]
    exact .inl (if_neg hlast)
  | case12 _ _ _ hidle hup hsize _ hentry hlast _ ih =>
    rw [walkFrom, if_neg hidle, if_neg hup, if_neg hsize, hother (by simp [hentry]), hentry]
    dsimp only
    rw [if_neg hlast]
    exact ih

/-- A path whose last link is not followed is vacant under its own last name only. -/
theorem getLast?_of_vacant {segments : List String} {place : Place}
    (h : files.walkFrom false links cur segments = .ok (.vacant place)) :
    segments.getLast? = place.getLast? := by
  have hmore : ∀ {links : Nat} {cur : Place} {s : String} {rest : List String},
      files.walkFrom false links cur rest = .ok (.vacant place) →
        (s :: rest).getLast? = rest.getLast? := by
    intro links cur s rest hrest
    cases rest with
    | nil => rw [walkFrom] at hrest; cases hrest
    | cons next rest => rw [List.getLast?_cons_cons]
  fun_induction walkFrom files false links cur segments with
  | case1 => cases h
  | case2 _ _ _ _ _ ih => exact (hmore h).trans (ih h)
  | case3 _ _ _ _ ih => exact (hmore h).trans (ih h)
  | case4 => cases h
  | case5 => cases h; rw [List.getLast?_concat]; rfl
  | case6 => cases h
  | case7 _ _ _ _ _ _ _ _ ih => exact (hmore h).trans (ih h)
  | case8 => cases h
  | case9 => cases h
  | case10 => cases h
  | case11 => cases h
  | case12 _ _ rest _ _ _ _ _ hlast _ ih =>
    -- More segments follow the link, and the last of them is the last one still.
    rw [← ih h]
    cases rest with
    | nil => exact absurd ⟨rfl, rfl⟩ hlast
    | cons next rest => rw [List.getLast?_cons_cons, List.getLast?_append_cons]

/-- A walk sees the file that was put where nothing stood, or does not. -/
theorem walk_put_cases (follow : Bool) (path : String) (hfree : files.find? draft = none) :
    let now := files.put draft (.file content executable)
    now.walk follow path = files.walk follow path ∨
      (files.walk follow path = .ok (.vacant draft) ∧
        (follow = false → (segmentsOf path).getLast? = draft.getLast?) ∧
        now.walk follow path = .ok (.entry draft (.file content executable))) ∨
      files.walk follow path = .error .notFound ∧ now.walk follow path = .error .notDirectory := by
  intro now
  by_cases hfit : path.contains '\x00' = false ∧ path ≠ "" ∧ path.utf8ByteSize < maxPathSize
  · have hwalk : ∀ files : Files, files.walk follow path = files.walkFrom follow maxLinks
        (if Path.isAbsolute path then [] else files.here) (segmentsOf path) := by
      intro files
      rw [walk, if_neg (by simp [hfit.1]), if_neg hfit.2.1, if_neg (Nat.not_le.mpr hfit.2.2)]
    rw [hwalk, hwalk]
    refine (walkFrom_put_cases follow (segmentsOf path) hfree).imp_right (.imp_left ?_)
    rintro ⟨hvacant, hnow⟩
    refine ⟨hvacant, ?_, hnow⟩
    rintro rfl
    exact getLast?_of_vacant hvacant
  · left
    unfold walk
    split
    · rfl
    next hnul =>
    split
    · rfl
    next hempty =>
    split
    · rfl
    next hlong => exact absurd ⟨by simpa using hnul, hempty, Nat.lt_of_not_le hlong⟩ hfit

/-! ## What the path holds -/

/-- What a path names: what stands at it, a link at its end not followed. -/
def entryAt? (files : Files) (path : String) : Option Entry :=
  match files.walk false path with
  | .ok (.entry _ entry) => some entry
  | _ => none

/-- The path holds what it held, and at most a draft is new in its directory. -/
structure Kept (files : Files) (path : String) (now : Files) : Prop where
  others : now = files ∨ ∃ directory name,
    files.directoryAt (Path.directory path) = .ok directory ∧
      files.find? (directory ++ [name]) = none ∧
      ∀ other, other ≠ directory ++ [name] → now.find? other = files.find? other
  entry : now.entryAt? path = files.entryAt? path
  read : ∀ content, files.read path = .ok content → now.read path = .ok content

theorem Kept.refl (files : Files) (path : String) : files.Kept path files where
  others := .inl rfl
  entry := rfl
  read _ h := h

/-- The way to the directory of the path leads through the entry that the path names. -/
def LeadsThroughItself (files : Files) (path : String) : Prop :=
  ∃ target, files.renameTarget path = .ok target ∧
    (files.erase target).directoryAt (Path.directory path) ≠
      files.directoryAt (Path.directory path)

/-- The path names a new file that holds the new content, and nothing else is changed. -/
structure Replaced (files : Files) (path : String) (content : ByteArray) (now : Files) : Prop where
  target : ∃ directory name, files.directoryAt (Path.directory path) = .ok directory ∧
    files.renameTarget path = .ok (directory ++ [name]) ∧
    now.find? (directory ++ [name]) = some (.file content false) ∧
    ∀ other, other ≠ directory ++ [name] → now.find? other = files.find? other
  read : now.read path = .ok content ↔ ¬files.LeadsThroughItself path

/-- A draft that does not have the path's own name is not what the path names. -/
theorem kept_of_draft {path own name : String} {directory : Place} (kept : ByteArray)
    (hdirectory : files.directoryAt (Path.directory path) = .ok directory)
    (hown : (segmentsOf path).getLast? = some own) (hname : name ≠ own)
    (hfree : files.find? (directory ++ [name]) = none) :
    files.Kept path (files.put (directory ++ [name]) (.file kept false)) where
  others := .inr ⟨directory, name, hdirectory, hfree, fun _ hother => find?_put_of_ne _ _ hother⟩
  entry := by
    unfold entryAt?
    obtain hsame | ⟨-, hlast, -⟩ | ⟨hbefore, hnow⟩ := walk_put_cases false path hfree
    · rw [hsame]
    · rw [hown, List.getLast?_concat] at hlast
      exact absurd (Option.some.inj (hlast rfl)).symm hname
    · rw [hbefore, hnow]
  read content hread := by
    unfold read at hread ⊢
    obtain hsame | ⟨hvacant, -⟩ | ⟨hbefore, -⟩ := walk_put_cases true path hfree
    · rwa [hsame]
    · rw [hvacant] at hread
      cases hread
    · rw [hbefore] at hread
      cases hread

/-- **A file at the end of the path, over what stood there, is what replacing the file gives.** -/
theorem replaced_of_put {path : String} {place target : Place}
    (hdirectory : files.directoryAt (Path.directory path) = .ok place)
    (htarget : files.renameTarget path = .ok target) :
    files.Replaced path content (files.put target (.file content false)) := by
  obtain ⟨hfit, above, name, directory, left, hsegments, hname, hdescend, -, rfl⟩ :=
    renameTarget_eq_ok_iff.mp htarget
  have hmove : isMove name = true := isMove_iff.mpr fun h => h.elim hname.1 hname.2.1
  have hdirectoryAt : ∀ {files : Files} {place : Place},
      files.directoryAt (Path.directory path) = .ok place ↔
        ∃ left, files.descend maxLinks (if Path.isAbsolute path then [] else files.here) above =
          some (left, place) :=
    directoryAt_directory_iff hsegments hmove (directoryAt_eq_ok_iff.mp hdirectory).1
  obtain rfl : directory = place := by
    obtain ⟨left', hplace⟩ := hdirectoryAt.mp hdirectory
    cases hdescend.symm.trans hplace
    rfl
  have hself : (files.erase (directory ++ [name])).find? (directory ++ [name]) = none :=
    find?_erase_self files (by simp)
  refine ⟨⟨directory, name, hdirectory, htarget, find?_put_self files _ (by simp),
    fun _ hother => find?_put_of_ne _ _ hother⟩, ?_⟩
  rw [← put_erase]
  constructor
  · rintro hread ⟨_, htarget', hother⟩
    cases htarget.symm.trans htarget'
    apply hother
    obtain ⟨_, hwritable⟩ := exists_writable_of_read hread
    obtain ⟨reached, hwalk, -⟩ := writable_eq_ok_iff.mp hwritable
    -- The way that is left goes through no file, so it is there without the file.
    rw [put_erase] at hwalk
    have hafter := descend_of_walk_put hsegments hdescend hwalk
    rw [← put_erase] at hafter
    rw [hdirectory]
    exact hdirectoryAt.mpr ⟨left, descend_of_put_file (by simp) hafter⟩
  · intro hnot
    have herased : (files.erase (directory ++ [name])).directoryAt (Path.directory path) =
        .ok directory := by
      rw [← hdirectory]
      exact Decidable.byContradiction fun hother => hnot ⟨_, htarget, hother⟩
    obtain ⟨left', hafter⟩ := hdirectoryAt.mp herased
    exact read_put_of_descend hsegments hfit hname
      ((open_of_free_or_file (.inl hself)).descend_put _ hafter)

/-! ## Replacing the file at a path -/

/-- Where replacing the file at a path can leave the disk: on the way, or at the end. -/
inductive Stops (files : Files) (path : String) (content : ByteArray) : Files → Prop where
  | begun : Stops files path content files
  | amid {r : Replacement} {now : Files} : files.replacement path content = .ok r →
      Interrupted files r.steps now → Stops files path content now
  | ended : Stops files path content (files.replace path content).2

/-- A replacement that succeeds gives the path its new content. -/
theorem replaced_of_replace {path : String} (h : files.replace path content = (.ok (), now)) :
    files.Replaced path content now := by
  obtain ⟨⟨⟨place, hdirectory⟩, -⟩, -, target, htarget, rfl⟩ := replace_eq_ok h
  exact replaced_of_put hdirectory htarget

/-- **Wherever replacing the file at a path stops, the path holds what it held or the new content as
a whole.** -/
theorem kept_or_replaced {path : String} (h : files.Stops path content now) :
    files.Kept path now ∨ files.Replaced path content now := by
  cases h with
  | begun => exact .inl (.refl files path)
  | ended =>
    rcases hreplace : files.replace path content with ⟨⟨_⟩ | _, after⟩
    · rw [replace_error hreplace]
      exact .inl (.refl files path)
    · exact .inr (replaced_of_replace hreplace)
  | @amid r now hr hinterrupted =>
    obtain ⟨hfree, rfl, rfl, directory, name, hdirectory, hdraft, hname⟩ := replacement_spec hr
    cases r.leaves_of_interrupted hfree .begun hinterrupted with
    | nothing => exact .inl (.refl files r.path)
    | draft kept =>
      have hown : (segmentsOf r.path).getLast? = some ((segmentsOf r.path).getLast?.getD "") := by
        rw [List.getLast?_eq_some_getLast (by simp [segmentsOf, Path.segments_ne_nil])]
        rfl
      rw [hdraft] at hfree ⊢
      exact .inl (kept_of_draft kept hdirectory hown hname hfree)
    | replaced htarget => exact .inr (replaced_of_put hdirectory htarget)

end Files

end CommitReports
