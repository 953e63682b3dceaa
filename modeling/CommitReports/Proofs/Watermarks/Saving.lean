import CommitReports.Proofs.Files.Interrupted
import CommitReports.Proofs.Recorded.WellKept
import CommitReports.Proofs.Run.Questions
import CommitReports.Proofs.Watermarks.Marks

/-!
# Saving the watermarks, and being stopped

Saving replaces the state file as a whole. Wherever it is stopped, the path of the state
file holds what it held, or the complete new text; when it succeeds it is the new text and
no other entry is changed; when it fails nothing is (`save_stops`).

What the path *names* is replaced: for a path that ends in a link this is the link. If the
way to its directory leads through that same link, the path leads nowhere once the link
has become a file (`save_over_own_way`).
-/

namespace CommitReports.Watermarks

/-- **Wherever the saving of watermarks stops**, the path of the state file names what it named and
reads as it did, or it names a file with the complete new text. The first is the case when saving
fails, and then nothing at all is changed; the second when it succeeds. -/
theorem save_stops {ρ : Type} (path : String) (watermarks : List Commit) (site : Site ρ) :
    (∀ now, site.files.Stops path (render watermarks).toUTF8 now →
      site.files.Kept path now ∨ site.files.Replaced path (render watermarks).toUTF8 now) ∧
    ∀ result after, (save path watermarks).perform site = (result, after) →
      site.files.Stops path (render watermarks).toUTF8 after.files ∧
      match result with
      | .ok () => site.files.Replaced path (render watermarks).toUTF8 after.files
      | .error _ => after.files = site.files := by
  refine ⟨fun now => Files.kept_or_replaced, ?_⟩
  rintro (e | ⟨⟨⟩⟩) after hsave
  · obtain ⟨-, hfiles⟩ := save_error hsave
    refine ⟨?_, hfiles⟩
    rw [hfiles]
    exact .begun
  · obtain ⟨hreplace, -⟩ := replace_of_save hsave
    refine ⟨?_, Files.replaced_of_replace hreplace⟩
    have hended : site.files.Stops path (render watermarks).toUTF8
        (site.files.replace path (render watermarks).toUTF8).2 := .ended
    rwa [hreplace] at hended

/-- When one byte of the draft is written, the state file still reads as one of the two texts; when it
is saved, it reads as the new one. -/
theorem save_stops_sample :
    let site : Site Unit := { resource := (), files := .sample }
    let draft : Files := Files.sample.put [".tmp0"] (.file "m".toUTF8 false)
    (Files.sample.Stops "/state" (render [ofMark ("m", "b")]).toUTF8 draft ∧
      (draft.readText "/state" = .ok "m a\n" ∨ draft.readText "/state" = .ok "m b\n")) ∧
    ∃ after, (save "/state" [ofMark ("m", "b")]).perform site = (.ok (), after) ∧
      after.files.readText "/state" = .ok "m b\n" := by
  intro site draft
  have htext : (render [ofMark ("m", "b")]).toUTF8 = "m b\n".toUTF8 := by cbv
  have hold : Files.sample.read "/state" = .ok "m a\n".toUTF8 :=
    Files.readText_eq_ok_iff.mp Files.readText_sample
  obtain ⟨hstops, hsaves⟩ := save_stops "/state" [ofMark ("m", "b")] site
  have hopen : ¬Files.sample.LeadsThroughItself "/state" := by
    rintro ⟨target, htarget, hother⟩
    have hstate : Files.sample.renameTarget "/state" = .ok ["state"] := by cbv
    cases hstate.symm.trans htarget
    exact hother (by cbv)
  have hdraft : Files.sample.Stops "/state" (render [ofMark ("m", "b")]).toUTF8 draft := by
    have hreplacement : Files.sample.replacement "/state" (render [ofMark ("m", "b")]).toUTF8 =
        .ok { directory := "/", draft := [".tmp0"], path := "/state",
              content := (render [ofMark ("m", "b")]).toUTF8 } := by cbv
    have hamid := Interrupted.amid (Files.sample.put [".tmp0"] (.file .empty false)) [".tmp0"]
      (render [ofMark ("m", "b")]).toUTF8 1 [.sync [".tmp0"], .rename [".tmp0"] "/state"]
    have hbyte : "m b\n".toUTF8.extract 0 1 = "m".toUTF8 := by cbv
    rw [Files.extend_put _ _ _ (by simp), ByteArray.empty_append, htext, hbyte] at hamid
    exact .amid hreplacement (.later rfl (htext ▸ hamid))
  refine ⟨⟨hdraft, ?_⟩, ?_⟩
  · rw [Files.readText_eq_ok_iff, Files.readText_eq_ok_iff, ← htext]
    exact (hstops draft hdraft).imp (·.read _ hold) (·.read.mpr hopen)
  · have hsave : (save "/state" [ofMark ("m", "b")]).perform site =
        (.ok (), ((save "/state" [ofMark ("m", "b")]).perform site).2) := Prod.ext (by cbv) rfl
    refine ⟨_, hsave, ?_⟩
    rw [Files.readText_eq_ok_iff, ← htext]
    exact (hsaves _ _ hsave).2.read.mpr hopen

/-- The path leads through a link to the directory that holds this link. Once the link is replaced by
a file, the path cannot be read. -/
theorem save_over_own_way :
    let files := ((Files.empty []).put ["dir"] .directory).put ["a"] (.link "dir")
    let site : Site Unit := { resource := (), files }
    ((save "a/../a" [ofMark ("m", "b")]).perform site).1 = .ok () ∧
      ((save "a/../a" [ofMark ("m", "b")]).perform site).2.files.readText "a/../a" =
        .error .notDirectory := by
  intro files site
  exact ⟨by cbv, by cbv⟩

end CommitReports.Watermarks
