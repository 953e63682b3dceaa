import CommitReports.Proofs.Files.Overwriting
import Mathlib

/-!
# What a replacement does to the disk

The draft of a replacement is made where nothing stands (`freshName_spec`), so a
replacement that fails, at whichever step, leaves the disk exactly as it was
(`replace_error`). One that succeeds changes one place: the one that a rename to the
path leads to, which then holds the new content (`replace_eq_ok`). A file of a path
that can be written to is read there with its new content afterwards
(`readText_replace`), links on the way included.

Whether a replacement succeeds depends on the path and on what the disk refuses, not on
what the file holds (`replace_of_replaceable`). So a path whose file could be replaced
once still is one afterwards (`replace_again`).
-/

namespace CommitReports

namespace Files

variable {files : Files}

/-! ## Putting and erasing -/

private theorem filter_ne_of_lookup {place : Place} :
    ∀ {entries : List (Place × Entry)}, entries.lookup place = none →
      entries.filter (·.1 != place) = entries := by
  intro entries
  induction entries with
  | nil => intro _; rfl
  | cons x xs ih =>
    obtain ⟨p, e⟩ := x
    intro h
    rw [List.lookup_cons] at h
    cases hp : place == p with
    | true => rw [hp] at h; cases h
    | false =>
      rw [hp] at h
      have hne : p ≠ place := fun heq => by simp [heq] at hp
      rw [List.filter_cons_of_pos (by simpa using hne), ih h]

/-- What is erased where nothing stood before it was put there leaves nothing behind. -/
theorem erase_put_of_free {place : Place} (entry : Entry) (h : files.find? place = none) :
    (files.put place entry).erase place = files := by
  have hne := ne_nil_of_free h
  have hentries := filter_ne_of_lookup (by simpa [find?, hne] using h)
  simp [put, erase, hentries]

theorem erase_of_free {place : Place} (h : files.find? place = none) :
    files.erase place = files := by
  have hne := ne_nil_of_free h
  have hentries := filter_ne_of_lookup (by simpa [find?, hne] using h)
  simp [erase, hentries]

theorem put_put (place : Place) (first second : Entry) :
    (files.put place first).put place second = files.put place second := by
  simp [put, List.filter_filter]

/-- What is put where something was erased is what is put over it. -/
theorem put_erase (place : Place) (entry : Entry) :
    (files.erase place).put place entry = files.put place entry := by
  simp [put, erase, List.filter_filter]

/-- Bytes added to a file that was just put at a place follow its content. -/
theorem extend_put {place : Place} (content bytes : ByteArray) (executable : Bool)
    (h : place ≠ []) :
    (files.put place (.file content executable)).extend place bytes =
      files.put place (.file (content ++ bytes) executable) := by
  rw [extend, find?_put_self files _ h]
  exact put_put place _ _

/-! ## The draft -/

theorem draftPlace_injective (directory : Place) :
    Function.Injective fun n : Nat => directory ++ [".tmp" ++ toString n] := by
  intro m n h
  simp only [List.append_cancel_left_eq, List.cons.injEq, and_true] at h
  exact Nat.repr_injective (String.append_right_inj _ |>.mp h)

/-- Where something stands, there is an entry. -/
theorem mem_places_of_not_free {place : Place} (hne : place ≠ []) (h : files.find? place ≠ none) :
    place ∈ files.entries.map (·.1) := by
  by_contra hmem
  apply h
  rw [find?, if_neg hne, List.lookup_eq_none_iff]
  intro x hx
  simp only [bne_iff_ne, ne_eq]
  rintro rfl
  exact hmem (List.mem_map_of_mem hx)

/-- A fresh name is free, and not the one to be avoided. -/
theorem freshName_spec (files : Files) (directory : Place) (own : String) :
    files.freshName directory own ≠ own ∧
      files.find? (directory ++ [files.freshName directory own]) = none := by
  unfold freshName
  simp only
  split
  next name hname =>
    have hgood := List.find?_some hname
    simp only [Bool.and_eq_true, bne_iff_ne, ne_eq, Option.isNone_iff_eq_none] at hgood
    exact hgood
  next hnone =>
    -- Too many candidates: each would have to be the avoided name or to stand for an entry.
    exfalso
    rw [List.find?_eq_none] at hnone
    have hsub : ((List.range (files.entries.length + 2)).map
        fun n => directory ++ [".tmp" ++ toString n]) ⊆
          (directory ++ [own]) :: files.entries.map (·.1) := by
      intro place hplace
      obtain ⟨n, hn, rfl⟩ := List.mem_map.mp hplace
      have hbad := hnone (".tmp" ++ toString n) (List.mem_map.mpr ⟨n, hn, rfl⟩)
      simp only [Bool.and_eq_true, bne_iff_ne, ne_eq, Option.isNone_iff_eq_none, not_and] at hbad
      by_cases hown : ".tmp" ++ toString n = own
      · exact List.mem_cons.mpr (.inl (by rw [← hown]))
      · exact List.mem_cons_of_mem _ (mem_places_of_not_free (by simp) (hbad hown))
    have hlen := List.Nodup.length_le_of_subset
      (List.nodup_range.map (draftPlace_injective directory)) hsub
    simp at hlen

end Files

/-! ## The course of a replacement -/

/-- The disk has room for a file of so many bytes. -/
def Refusals.Takes (refusals : Refusals) (size : Nat) : Prop :=
  ∀ room e, refusals.append = some (room, e) → size ≤ room

/-- The disk refuses no step of replacing a file by one of so many bytes. -/
structure Refusals.Grant (refusals : Refusals) (size : Nat) : Prop where
  create : refusals.create = none
  takes : refusals.Takes size
  sync : refusals.sync = none
  rename : refusals.rename = none

namespace Replacement

open Files

variable {files : Files}

theorem performSteps_made (r : Replacement) {step : ReplacementStep} {now : Files}
    (rest : List ReplacementStep) (h : step.perform files = (none, now)) :
    r.performSteps files (step :: rest) = r.performSteps now rest := by
  rw [performSteps, h]

theorem performSteps_refused (r : Replacement) {step : ReplacementStep} {e : SystemError}
    {now : Files} (rest : List ReplacementStep) (h : step.perform files = (some e, now)) :
    r.performSteps files (step :: rest) = (.error (r.blamed step, e), now) := by
  rw [performSteps, h]

/-- Bytes added to a draft are added to it in part or, if the disk takes so many, as a whole. -/
theorem perform_append (files : Files) (draft : Place) (content : ByteArray)
    (hne : draft ≠ []) :
    ∃ refusal kept, (ReplacementStep.append draft content).perform
        (files.put draft (.file .empty false)) = (refusal, files.put draft (.file kept false)) ∧
      (refusal = none ↔ files.refusals.Takes content.size) ∧ (refusal = none → kept = content) := by
  have hextend : ∀ bytes : ByteArray,
      (files.put draft (.file .empty false)).extend draft bytes =
        files.put draft (.file bytes false) := by
    intro bytes
    rw [extend_put _ _ _ hne, ByteArray.empty_append]
  have hsame : (files.put draft (.file .empty false)).refusals = files.refusals := rfl
  rw [ReplacementStep.perform, hsame, Refusals.Takes]
  rcases files.refusals.append with _ | ⟨room, e⟩
  · exact ⟨none, content, by rw [hextend], by simp, fun _ => rfl⟩
  · by_cases hroom : room < content.size
    · exact ⟨some e, content.extract 0 room, by simp only [if_pos hroom, hextend], by simp [hroom], nofun⟩
    · exact ⟨none, content, by simp only [if_neg hroom, hextend], by simp [Nat.le_of_not_lt hroom],
        fun _ => rfl⟩

/-- The draft takes the place that a rename leads to, or nothing happens. -/
theorem perform_rename {draft : Place} (path : String) (content : ByteArray)
    (hfree : files.find? draft = none) :
    (∃ e, (ReplacementStep.rename draft path).perform (files.put draft (.file content false)) =
        (some e, files.put draft (.file content false)) ∧
        (files.refusals.rename ≠ none ∨ ∀ target, files.renameTarget path ≠ .ok target)) ∨
      ∃ target, files.refusals.rename = none ∧ files.renameTarget path = .ok target ∧
        (ReplacementStep.rename draft path).perform (files.put draft (.file content false)) =
          (none, files.put target (.file content false)) := by
  have hopen := open_of_free_or_file (.inl hfree)
  have hsame : (files.put draft (.file content false)).refusals = files.refusals := rfl
  rw [ReplacementStep.perform, hsame]
  split
  next e htarget =>
    refine .inl ⟨e, rfl, .inr fun target hfound => ?_⟩
    rw [hopen.renameTarget_put hfound] at htarget
    cases htarget
  next target htarget =>
    split
    next e hrefused => exact .inl ⟨e, rfl, .inl (by simp [hrefused])⟩
    next hgranted =>
      refine .inr ⟨target, hgranted, renameTarget_of_put hfree htarget, ?_⟩
      rw [move, find?_put_self files _ (ne_nil_of_free hfree)]
      simp only [erase_put_of_free _ hfree]

/-- A replacement puts the new content where a rename to the path leads, or leaves the disk as it
was: because a rename leads nowhere, or because the disk refuses a step. -/
theorem perform_cases (r : Replacement) (hfree : files.find? r.draft = none) :
    (∃ e, r.perform files = (.error e, files) ∧
        (¬files.refusals.Grant r.content.size ∨ ∀ target, files.renameTarget r.path ≠ .ok target)) ∨
      ∃ target, files.refusals.Grant r.content.size ∧ files.renameTarget r.path = .ok target ∧
        r.perform files = (.ok (), files.put target (.file r.content false)) := by
  have hne := ne_nil_of_free hfree
  -- Whatever the draft holds when a step is refused, it is removed.
  have hfailed : ∀ e now, r.performSteps files r.steps = (.error e, now) →
      now.erase r.draft = files → r.perform files = (.error e, files) := by
    intro e now hsteps herase
    simp only [perform, hsteps, herase]
  cases hcreate : files.refusals.create with
  | some e =>
    have hstep : (ReplacementStep.create r.draft).perform files = (some e, files) := by
      rw [ReplacementStep.perform, hcreate]
    exact .inl ⟨_, hfailed _ _ (r.performSteps_refused _ hstep) (erase_of_free hfree),
      .inl fun hgrant => by simp [hgrant.create] at hcreate⟩
  | none =>
    have hcreated : (ReplacementStep.create r.draft).perform files =
        (none, files.put r.draft (.file .empty false)) := by
      rw [ReplacementStep.perform, hcreate]
    obtain ⟨refusal, kept, happend, htakes, hkept⟩ := perform_append files r.draft r.content hne
    cases refusal with
    | some e =>
      exact .inl ⟨_, hfailed _ _
        ((r.performSteps_made _ hcreated).trans (r.performSteps_refused _ happend))
        (erase_put_of_free _ hfree), .inl fun hgrant => nomatch htakes.mpr hgrant.takes⟩
    | none =>
      obtain rfl := hkept rfl
      have hcollected : r.performSteps files r.steps = r.performSteps
          (files.put r.draft (.file r.content false)) [.sync r.draft, .rename r.draft r.path] := by
        rw [steps, r.performSteps_made _ hcreated, r.performSteps_made _ happend]
      cases hsync : files.refusals.sync with
      | some e =>
        have hrefused : (ReplacementStep.sync r.draft).perform
            (files.put r.draft (.file r.content false)) =
              (some e, files.put r.draft (.file r.content false)) := congrArg (·, _) hsync
        exact .inl ⟨_, hfailed _ _ (hcollected.trans (r.performSteps_refused _ hrefused))
          (erase_put_of_free _ hfree), .inl fun hgrant => by simp [hgrant.sync] at hsync⟩
      | none =>
        have hsynced : (ReplacementStep.sync r.draft).perform
            (files.put r.draft (.file r.content false)) =
              (none, files.put r.draft (.file r.content false)) := congrArg (·, _) hsync
        rw [r.performSteps_made _ hsynced] at hcollected
        obtain ⟨e, hrename, hwhy⟩ | ⟨target, hgranted, htarget, hrename⟩ :=
          perform_rename r.path r.content hfree
        · exact .inl ⟨_, hfailed _ _ (hcollected.trans (r.performSteps_refused _ hrename))
            (erase_put_of_free _ hfree), hwhy.imp_left fun hrefused hgrant => hrefused hgrant.rename⟩
        · rw [r.performSteps_made _ hrename] at hcollected
          exact .inr ⟨target, ⟨hcreate, htakes.mp rfl, hsync, hgranted⟩, htarget,
            by simp only [perform, hcollected, performSteps]⟩

end Replacement

namespace Files

variable {files after : Files} {path : String} {content : ByteArray}

/-- The draft of a replacement is made where nothing stands, in the directory of the path, and under
another name than the path's own. -/
theorem replacement_spec {r : Replacement} (h : files.replacement path content = .ok r) :
    files.find? r.draft = none ∧ r.path = path ∧ r.content = content ∧
      ∃ directory name, files.directoryAt (Path.directory path) = .ok directory ∧
        r.draft = directory ++ [name] ∧ name ≠ (segmentsOf path).getLast?.getD "" := by
  simp only [replacement] at h
  split at h
  next => cases h
  next place hdirectory =>
    cases h
    obtain ⟨hname, hfree⟩ := freshName_spec files place ((segmentsOf path).getLast?.getD "")
    exact ⟨hfree, rfl, rfl, place, _, hdirectory, rfl, hname⟩

/-- **A replacement that fails leaves the disk exactly as it was**, whichever step is refused. -/
theorem replace_error {e : String × SystemError}
    (h : files.replace path content = (.error e, after)) : after = files := by
  unfold replace at h
  split at h
  next =>
    cases h
    rfl
  next r hr =>
    obtain ⟨_, herror, -⟩ | ⟨_, -, -, hok⟩ := r.perform_cases (replacement_spec hr).1
    · rw [herror] at h
      cases h
      rfl
    · rw [hok] at h
      cases h

/-- The file of the path can be replaced as far as the path goes: it has a directory, and a rename
to it leads somewhere. -/
structure Replaceable (files : Files) (path : String) : Prop where
  directory : ∃ place, files.directoryAt (Path.directory path) = .ok place
  target : ∃ target, files.renameTarget path = .ok target

/-- A replacement that succeeds changes one place: where a rename to the path leads. -/
theorem replace_eq_ok (h : files.replace path content = (.ok (), after)) :
    files.Replaceable path ∧ files.refusals.Grant content.size ∧
      ∃ target, files.renameTarget path = .ok target ∧
        after = files.put target (.file content false) := by
  unfold replace at h
  split at h
  next => cases h
  next r hr =>
    obtain ⟨hfree, rfl, rfl, place, -, hdirectory, -⟩ := replacement_spec hr
    obtain ⟨_, herror, -⟩ | ⟨target, hgrant, htarget, hok⟩ := r.perform_cases hfree
    · rw [herror] at h
      cases h
    · rw [hok] at h
      cases h
      exact ⟨⟨⟨place, hdirectory⟩, target, htarget⟩, hgrant, target, htarget, rfl⟩

/-- **A file that can be replaced is replaced** if the disk refuses nothing. -/
theorem replace_of_replaceable (h : files.Replaceable path)
    (hgrant : files.refusals.Grant content.size) :
    ∃ after, files.replace path content = (.ok (), after) := by
  obtain ⟨⟨place, hdirectory⟩, target, htarget⟩ := h
  cases hr : files.replacement path content with
  | error e => simp [replacement, hdirectory] at hr
  | ok r =>
    obtain ⟨hfree, rfl, rfl, -⟩ := replacement_spec hr
    obtain ⟨_, -, hnot | hnowhere⟩ | ⟨target, -, -, hok⟩ := r.perform_cases hfree
    · exact absurd hgrant hnot
    · exact absurd htarget (hnowhere target)
    · exact ⟨_, by rw [replace, hr]; exact hok⟩

/-- A file at an open place is not in the way of a replacement. -/
theorem Replaceable.put {place : Place} (h : files.Replaceable path) (hopen : files.Open place)
    (bytes : ByteArray) (executable : Bool) :
    (files.put place (.file bytes executable)).Replaceable path := by
  obtain ⟨⟨directory, hdirectory⟩, target, htarget⟩ := h
  exact ⟨⟨directory, hopen.directoryAt_put _ hdirectory⟩, target, hopen.renameTarget_put htarget⟩

/-- A file that was replaced can be replaced by the same once more. -/
theorem replace_again {place : Place} (hpath : files.writable path = .ok place)
    (h : files.replace path content = (.ok (), after)) :
    ∃ after', after.replace path content = (.ok (), after') := by
  obtain ⟨hreplaceable, hgrant, target, htarget, rfl⟩ := replace_eq_ok h
  have hopen := open_of_renameTarget hpath htarget
  exact replace_of_replaceable (hreplaceable.put hopen content false) hgrant

/-- Whether a file can be replaced does not depend on what it holds. -/
theorem replace_store {place : Place} {old new : ByteArray}
    (hpath : files.writable path = .ok place) (hroom : files.refusals.append = none)
    (h : (files.store place old).replace path content = (.ok (), after)) (content' : ByteArray) :
    ∃ after', (files.store place new).replace path content' = (.ok (), after') := by
  have hne : place ≠ [] := by
    rintro rfl
    rcases free_or_file_of_writable hpath with hfree | ⟨_, _, hfile⟩
    · exact ne_nil_of_free hfree rfl
    · simp [find?] at hfile
  obtain ⟨mode, hstore⟩ := files.exists_store_eq_put place
  rw [hstore] at h ⊢
  obtain ⟨hreplaceable, hgrant, -⟩ := replace_eq_ok h
  have hopen := open_of_free_or_file
    (.inr ⟨old, mode, find?_put_self files (.file old mode) hne⟩)
  have hnew := hreplaceable.put hopen new mode
  rw [put_put] at hnew
  refine replace_of_replaceable hnew ⟨hgrant.create, fun room e hrefused => ?_, hgrant.sync, hgrant.rename⟩
  rw [show (files.put place (.file new mode)).refusals = files.refusals from rfl, hroom] at hrefused
  cases hrefused

/-! ## Reading what was replaced -/

section Reading

variable {above : List String} {name : String} {directory : Place} {left : Nat}
  (hsegments : segmentsOf path = above ++ [name])

include hsegments

/-- A new file at the end of a path is read if the path still leads to its directory. -/
theorem read_put_of_descend
    (hfit : path.contains '\x00' = false ∧ path ≠ "" ∧ path.utf8ByteSize < maxPathSize)
    (hname : name ≠ "" ∧ name ≠ "." ∧ name ≠ ".." ∧ name.utf8ByteSize ≤ maxNameSize)
    (hafter : (files.put (directory ++ [name]) (.file content false)).descend maxLinks
      (if Path.isAbsolute path then [] else files.here) above = some (left, directory)) :
    (files.put (directory ++ [name]) (.file content false)).read path = .ok content := by
  obtain ⟨hne, hdot, hup, hsize⟩ := hname
  have hfound : (files.put (directory ++ [name]) (.file content false)).find?
      (directory ++ [name]) = some (.file content false) := find?_put_self files _ (by simp)
  have hwalk : (files.put (directory ++ [name]) (.file content false)).walkFrom true maxLinks
      (if Path.isAbsolute path then [] else files.here) (segmentsOf path) =
        .ok (.entry (directory ++ [name]) (.file content false)) := by
    rw [hsegments, walkFrom_append _ hafter, walkFrom, if_neg (fun h => h.elim hne hdot), if_neg hup,
      if_neg (Nat.not_lt.mpr hsize), hfound]
    rfl
  rw [read, walk_eq_ok_iff.mpr ⟨hfit, hwalk⟩]

/-- Where the path still leads to, it goes through the directory that it went through before. -/
theorem descend_of_walk_put {reached : Reached}
    (hdescend : files.descend maxLinks (if Path.isAbsolute path then [] else files.here) above =
      some (left, directory))
    (hwalk : (files.put (directory ++ [name]) (.file content false)).walk true path = .ok reached) :
    (files.put (directory ++ [name]) (.file content false)).descend maxLinks
      (if Path.isAbsolute path then [] else files.here) above = some (left, directory) := by
  have hend := (walk_eq_ok_iff.mp hwalk).2
  rw [hsegments] at hend
  obtain ⟨left', directory', hafter⟩ := exists_descend (List.cons_ne_nil name []) hend
  cases hdescend.symm.trans (descend_of_put_file (by simp) hafter)
  exact hafter

end Reading

/-- **What a file was replaced by is read at its path**, if the path could be written to. -/
theorem read_replace {place : Place} (hpath : files.writable path = .ok place)
    (h : files.replace path content = (.ok (), after)) : after.read path = .ok content := by
  obtain ⟨-, -, target, htarget, rfl⟩ := replace_eq_ok h
  have hopen := open_of_renameTarget hpath htarget
  obtain ⟨hfit, above, name, directory, left, hsegments, hname, hdescend, -, rfl⟩ :=
    renameTarget_eq_ok_iff.mp htarget
  -- The way to the directory is as before; the new file stands there.
  exact read_put_of_descend hsegments hfit hname (hopen.descend_put _ hdescend)

/-- A text that a file was replaced by is what is read. -/
theorem readText_replace {place : Place} {text : String} (hpath : files.writable path = .ok place)
    (h : files.replace path text.toUTF8 = (.ok (), after)) : after.readText path = .ok text :=
  readText_eq_ok_iff.mpr (read_replace hpath h)

/-- Wherever the path still leads to, it leads to the new file. -/
theorem read_of_replaced {place : Place} (h : files.replace path content = (.ok (), after))
    (hpath : after.writable path = .ok place) : after.read path = .ok content := by
  obtain ⟨-, -, target, htarget, rfl⟩ := replace_eq_ok h
  obtain ⟨hfit, above, name, directory, left, hsegments, hname, hdescend, -, rfl⟩ :=
    renameTarget_eq_ok_iff.mp htarget
  obtain ⟨reached, hwalk, -⟩ := writable_eq_ok_iff.mp hpath
  exact read_put_of_descend hsegments hfit hname (descend_of_walk_put hsegments hdescend hwalk)

end Files

end CommitReports
