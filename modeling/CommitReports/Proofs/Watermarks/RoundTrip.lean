import CommitReports.Proofs.Recorded.WellKept
import CommitReports.Proofs.Run.Questions
import CommitReports.Proofs.Watermarks.Loading

/-!
# Round trips of the state file

A text is *plain* if it is what saving writes: lines with two fields each, one space
between them and a line feed at the end, and nothing else (`Plain`). Saving gives plain
texts only, and what a plain text says is read back as it was written.

- Watermarks that verify are loaded again after they were saved, in order.
- Loading a file and saving what was loaded keeps what each line says, and drops blank
  lines and all white space that separates nothing. Doing so again changes nothing.
- It changes nothing the first time if and only if the file is plain already.

`round_trip` is all of this for any history whose answers on names are settled and that
leaves the disk alone when it gives them.
-/

namespace CommitReports.Watermarks

open Text (IsField)

/-- The text that has a line for each of some marks. -/
def plain (marks : List (String × String)) : String :=
  Text.unlines (marks.map fun m => m.1 ++ " " ++ m.2)

/-- Both names of a mark can stand as fields. -/
def AreFields (m : String × String) : Prop := IsField m.1 ∧ IsField m.2

/-- The text is made of lines with two fields each and one space between them. -/
def Plain (text : String) : Prop := ∃ marks, (∀ m ∈ marks, AreFields m) ∧ text = plain marks

/-- Loads a state file and saves what was loaded. -/
def rewrite {ρ : Type} [History ρ] (path : String) (localOnly : Bool) : Action ρ Unit := do
  let watermarks ← load path localOnly
  save path watermarks

/-! ## Texts -/

theorem render_ofMark (marks : List (String × String)) : render (marks.map ofMark) = plain marks := by
  rw [render, List.map_map]
  rfl

section Plain

variable {marks : List (String × String)} (h : ∀ m ∈ marks, AreFields m)

include h

theorem areFields_ofMark :
    ∀ w ∈ marks.map ofMark, IsField w.branch.name ∧ IsField w.hash := by
  intro w hw
  obtain ⟨m, hm, rfl⟩ := List.mem_map.mp hw
  exact h m hm

theorem marksOf_plain : marksOf (plain marks) = marks := by
  have hmarks := marksOf_render (areFields_ofMark h)
  rw [render_ofMark, List.map_map] at hmarks
  exact hmarks.trans (List.map_id marks)

/-- Each line of a plain text names one of its marks. -/
theorem read_of_mem_plain {line : String} (hline : line ∈ Text.linesOf (plain marks)) :
    ∃ m ∈ marks, Line.read line = .mark m.1 m.2 := by
  have hfields := areFields_ofMark h
  rw [← render_ofMark, linesOf_render hfields] at hline
  obtain ⟨w, hw, rfl⟩ := List.mem_map.mp hline
  have hread := read_line hfields hw
  obtain ⟨m, hm, rfl⟩ := List.mem_map.mp hw
  exact ⟨m, hm, hread⟩

end Plain

theorem areFields_marksOf {text : String} : ∀ m ∈ marksOf text, AreFields m := fun _ hm =>
  mem_marksOf hm

/-- **A text is plain if and only if it is what its own marks are written as.** -/
theorem plain_iff {text : String} : Plain text ↔ plain (marksOf text) = text := by
  constructor
  · rintro ⟨marks, hmarks, rfl⟩
    rw [marksOf_plain hmarks]
  · exact fun h => ⟨marksOf text, areFields_marksOf, h.symm⟩

/-- The lines that are not blank have two fields each, and name the marks in order. -/
theorem forall₂_fields {lines : List String} (h : ∀ line ∈ lines, Line.read line ≠ .malformed) :
    List.Forall₂ (fun line m => Text.fields line = [m.1, m.2])
      (lines.filter fun line => !Text.allBlank line)
      (lines.filterMap fun line => (Line.read line).mark?) := by
  induction lines with
  | nil => exact .nil
  | cons line rest ih =>
    obtain ⟨hline, hrest⟩ := List.forall_mem_cons.mp h
    unfold Line.read at hline
    split at hline
    next hfields =>
      rw [List.filter_cons_of_neg (by simpa using Text.fields_eq_nil_iff.mp hfields),
        List.filterMap_cons_none (by rw [Line.read, hfields]; rfl)]
      exact ih hrest
    next branch hash hfields =>
      have hblank : ¬Text.allBlank line = true := fun hblank => by
        rw [Text.fields_eq_nil_iff.mpr hblank] at hfields
        cases hfields
      rw [List.filter_cons_of_pos (by simpa using hblank),
        List.filterMap_cons_some (b := (branch, hash)) (by rw [Line.read, hfields]; rfl)]
      exact .cons hfields (ih hrest)
    next => exact absurd rfl hline

/-! ## Loading and saving -/

variable {ρ : Type} [History ρ] {names : Names} {I : ρ → Prop} {path : String} {localOnly : Bool}
  (h : ∀ files, names.Hold (ρ := ρ) fun r d => I r ∧ d = files)

include h

/-- What is loaded is what an accepted file names. -/
theorem load_eq_ok {site after : Site ρ} {watermarks : List Commit} (hsite : I site.resource)
    (hload : (load path localOnly).perform site = (.ok watermarks, after)) :
    (I after.resource ∧ after.files = site.files) ∧ ∃ text,
      site.files.readText path = .ok text ∧
      (∀ line ∈ Text.linesOf text, names.Accepts localOnly line) ∧
      watermarks = (marksOf text).map ofMark := by
  obtain ⟨hloaded, hafter⟩ := (h site.files).load path localOnly site ⟨hsite, rfl⟩
  rw [hload] at hloaded hafter
  exact ⟨hafter, Names.loaded_eq_ok_iff.mp hloaded.symm⟩

/-- An accepted file is loaded. -/
theorem exists_load {site : Site ρ} {text : String} (hsite : I site.resource)
    (hread : site.files.readText path = .ok text)
    (haccepted : ∀ line ∈ Text.linesOf text, names.Accepts localOnly line) :
    ∃ after, (load path localOnly).perform site = (.ok ((marksOf text).map ofMark), after) ∧
      I after.resource ∧ after.files = site.files := by
  obtain ⟨hloaded, hafter⟩ := (h site.files).load path localOnly site ⟨hsite, rfl⟩
  rw [Names.loaded_eq_ok_iff.mpr ⟨text, hread, haccepted, rfl⟩] at hloaded
  exact ⟨_, Prod.ext hloaded rfl, hafter⟩

omit h in
/-- A plain file is accepted if its marks verify. -/
theorem accepts_plain {marks : List (String × String)}
    (hmarks : ∀ m ∈ marks, AreFields m ∧ names.Verifies localOnly m) :
    ∀ line ∈ Text.linesOf (plain marks), names.Accepts localOnly line := by
  intro line hline
  obtain ⟨m, hm, hread⟩ := read_of_mem_plain (fun m hm => (hmarks m hm).1) hline
  rw [Names.Accepts, hread]
  exact (hmarks m hm).2

omit h in
/-- The marks of an accepted file verify. -/
theorem verifies_of_accepts {text : String}
    (haccepted : ∀ line ∈ Text.linesOf text, names.Accepts localOnly line) :
    ∀ m ∈ marksOf text, AreFields m ∧ names.Verifies localOnly m := by
  intro m hm
  refine ⟨areFields_marksOf m hm, ?_⟩
  obtain ⟨line, hline, hmark⟩ := List.mem_filterMap.mp hm
  have haccepts := haccepted line hline
  unfold Names.Accepts at haccepts
  cases hread : Line.read line with
  | blank => rw [hread] at hmark; cases hmark
  | malformed => rw [hread] at hmark; cases hmark
  | mark branch hash =>
    rw [hread] at hmark haccepts
    cases hmark
    exact haccepts

/-- Rewriting an accepted file replaces it by the plain text of its marks. -/
theorem rewrite_eq_ok {site after : Site ρ} (hsite : I site.resource)
    (hrewrite : (rewrite path localOnly).perform site = (.ok (), after)) :
    I after.resource ∧ ∃ text, site.files.readText path = .ok text ∧
      (∀ line ∈ Text.linesOf text, names.Accepts localOnly line) ∧
      site.files.replace path (plain (marksOf text)).toUTF8 = (.ok (), after.files) := by
  obtain ⟨watermarks, loaded, hload, hsave⟩ := Action.perform_bind_eq_ok.mp hrewrite
  obtain ⟨⟨hloaded, hfiles⟩, text, hread, haccepted, rfl⟩ := load_eq_ok h hsite hload
  obtain ⟨hreplace, hresource⟩ := replace_of_save hsave
  rw [render_ofMark, hfiles] at hreplace
  exact ⟨by rwa [hresource], text, hread, haccepted, hreplace⟩

/-- A file that is accepted and can be replaced can be rewritten. -/
theorem exists_rewrite {site : Site ρ} {text : String} {files : Files} (hsite : I site.resource)
    (hread : site.files.readText path = .ok text)
    (haccepted : ∀ line ∈ Text.linesOf text, names.Accepts localOnly line)
    (hreplace : site.files.replace path (plain (marksOf text)).toUTF8 = (.ok (), files)) :
    ∃ after, (rewrite path localOnly).perform site = (.ok (), after) ∧ after.files = files := by
  obtain ⟨loaded, hload, -, hfiles⟩ := exists_load h hsite hread haccepted
  rw [← hfiles, ← render_ofMark] at hreplace
  obtain ⟨after, hsave, -, hafter⟩ := exists_save hreplace
  exact ⟨after, Action.perform_bind_eq_ok.mpr ⟨_, loaded, hload, hsave⟩, hafter⟩

/-- **Saving and loading undo each other**, and make a plain file of one that is not. -/
theorem round_trip (localOnly : Bool) {place : Place} {site : Site ρ} (hsite : I site.resource)
    (hpath : site.files.writable path = .ok place) :
    (∀ watermarks saved,
      (∀ w ∈ watermarks, AreFields (markOf w) ∧ names.Verifies localOnly (markOf w)) →
      (save path watermarks).perform site = (.ok (), saved) →
      ((load path localOnly).perform saved).1 = .ok watermarks) ∧
    (∀ watermarks, ((load path localOnly).perform site).1 = .ok watermarks →
      site.files.Replaceable path → site.files.refusals.Grant (render watermarks).toUTF8.size →
      ∃ after, (rewrite path localOnly).perform site = (.ok (), after)) ∧
    ∀ after, (rewrite path localOnly).perform site = (.ok (), after) →
      ∃ text, site.files.readText path = .ok text ∧
        (∃ marks : List (String × String),
          List.Forall₂ (fun line m => Text.fields line = [m.1, m.2])
            ((Text.linesOf text).filter fun line => !Text.allBlank line) marks ∧
          after.files.readText path = .ok (Text.unlines (marks.map fun m => m.1 ++ " " ++ m.2))) ∧
        (∃ again, (rewrite path localOnly).perform after = (.ok (), again) ∧
          again.files.read path = after.files.read path) ∧
        (after.files.read path = site.files.read path ↔ Plain text) := by
  refine ⟨fun watermarks saved hwatermarks hsave => ?_,
    fun watermarks hload hreplaceable hgrant => ?_, fun after hrewrite => ?_⟩
  · obtain ⟨hreplace, hresource⟩ := replace_of_save hsave
    have hmarks : ∀ m ∈ watermarks.map markOf, AreFields m ∧ names.Verifies localOnly m := by
      intro m hm
      obtain ⟨w, hw, rfl⟩ := List.mem_map.mp hm
      exact hwatermarks w hw
    have hsame : (watermarks.map markOf).map ofMark = watermarks := by
      rw [List.map_map]
      exact List.map_id watermarks
    have hread := Files.readText_replace hpath hreplace
    rw [← hsame, render_ofMark] at hread
    obtain ⟨loaded, hload, -⟩ := exists_load h (by rwa [hresource]) hread (accepts_plain hmarks)
    rw [hload, marksOf_plain fun m hm => (hmarks m hm).1, hsame]
  · obtain ⟨-, text, hread, haccepted, rfl⟩ := load_eq_ok h hsite (Prod.ext hload rfl)
    obtain ⟨files, hreplace⟩ := Files.replace_of_replaceable hreplaceable hgrant
    rw [render_ofMark] at hreplace
    obtain ⟨after, hrewrite, -⟩ := exists_rewrite h hsite hread haccepted hreplace
    exact ⟨after, hrewrite⟩
  · obtain ⟨hafter, text, hread, haccepted, hreplace⟩ := rewrite_eq_ok h hsite hrewrite
    have hplain := Files.readText_replace hpath hreplace
    refine ⟨text, hread, ⟨marksOf text, forall₂_fields fun line hline =>
      (haccepted line hline).ne_malformed, hplain⟩, ?_, ?_⟩
    · -- The plain file says the same, and the disk takes it as it did before.
      obtain ⟨files, hreplaced⟩ := Files.replace_again hpath hreplace
      have hmarks : marksOf (plain (marksOf text)) = marksOf text := marksOf_plain areFields_marksOf
      obtain ⟨again, hagain, hfiles⟩ := exists_rewrite h hafter hplain
        (accepts_plain (verifies_of_accepts haccepted)) (hmarks.symm ▸ hreplaced)
      obtain ⟨_, hwritable⟩ := Files.exists_writable_of_readText hplain
      refine ⟨again, hagain, ?_⟩
      rw [hfiles, Files.read_replace hwritable hreplaced, Files.readText_eq_ok_iff.mp hplain]
    · rw [plain_iff, Files.readText_eq_ok_iff.mp hplain, Files.readText_eq_ok_iff.mp hread]
      simp [String.toByteArray_inj]

omit h

/-- A watermark is loaded as it was saved; and a file with other line ends, other white space and a
blank line becomes a plain one. -/
theorem round_trip_sample :
    let site : Site Recorded := { resource := .sample, files := .holding " m\ta\r\n\n\u00a0m b" }
    (∃ saved, (save "/state" [ofMark ("m", "b")]).perform site = (.ok (), saved) ∧
      ((load "/state" true).perform saved).1 = .ok [ofMark ("m", "b")]) ∧
    ∃ after again, (rewrite "/state" true).perform site = (.ok (), after) ∧
      after.files.readText "/state" = .ok "m a\nm b\n" ∧
      (rewrite "/state" true).perform after = (.ok (), again) ∧
      again.files.read "/state" = after.files.read "/state" ∧
      after.files.read "/state" ≠ site.files.read "/state" := by
  intro site
  have hnames : ∀ files, Recorded.sample.answers.names.Hold fun r d =>
      Recorded.sample.Alike r ∧ d = files := fun files => (Recorded.hold .sample files).names
  have hpath : site.files.writable "/state" = .ok ["state"] := by cbv
  obtain ⟨hload, -, hrewritten⟩ := round_trip hnames true (.refl _) hpath
  constructor
  · have hsave : (save "/state" [ofMark ("m", "b")]).perform site =
        (.ok (), ((save "/state" [ofMark ("m", "b")]).perform site).2) := Prod.ext (by cbv) rfl
    refine ⟨_, hsave, hload _ _ (fun w hw => ?_) hsave⟩
    obtain rfl := List.mem_singleton.mp hw
    have hfields : AreFields ("m", "b") :=
      ⟨⟨by simp, by simp [Text.isBlank]⟩, by simp, by simp [Text.isBlank]⟩
    exact ⟨hfields, ⟨"c", rfl⟩, fun _ => rfl, "b", rfl⟩
  · have hrewrite : (rewrite "/state" true).perform site =
        (.ok (), ((rewrite "/state" true).perform site).2) := Prod.ext (by cbv) rfl
    obtain ⟨text, hread, -, ⟨again, hagain, hsame⟩, hplain⟩ := hrewritten _ hrewrite
    have htext : site.files.readText "/state" = .ok " m\ta\r\n\n\u00a0m b" := by cbv
    refine ⟨_, again, hrewrite, by cbv, hagain, hsame, fun heq => ?_⟩
    rw [htext] at hread
    cases hread
    exact absurd (plain_iff.mp (hplain.mp heq)) (by cbv)

end CommitReports.Watermarks
