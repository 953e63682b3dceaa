import CommitReports.Proofs.Text.Lines
import CommitReports.Proofs.Text.Pieces
import CommitReports.Report

/-!
# The header of a report

The text of a report starts with the header lines, an empty one after them. Whether a
reader finds them there, line by line, depends on the addresses, the branch and the hash:
each has to be a line where it stands (`Report.header_iff`).

If none of them holds a line feed, the first empty line is where the header ends, whatever
the texts behind it are (`Report.pieces_render`). So the text of a report gives back all that
the header shows, and the body as one text (`Report.render_read`). The subject alone would not
do, for it has the branch and the hash with a space between them, and either may hold a space.
-/

namespace CommitReports.Report

open Text (IsLine)

theorem render_eq (r : Report) : r.render = Text.unlines (r.headerLines ++ [""]) ++ r.body := by
  apply String.toList_inj.mp
  rw [String.toList_append, Text.toList_unlines]
  simp [render, headerLines, String.join, String.toList_append]

/-- **The first six lines of a report are its header and an empty line if and only if all that the
header shows is on single lines.** -/
theorem header_iff {r : Report} (hbranch : IsLine r.branch) :
    (Text.linesOf r.render).take 6 = r.headerLines ++ [""] ↔
      IsLine r.sender ∧ IsLine r.recipient ∧ IsLine r.hash := by
  have hfrom : IsLine "From: " := .of_all (by decide)
  have hto : IsLine "To: " := .of_all (by decide)
  have htype : IsLine "Content-type: text/plain" := .of_all (by decide)
  have hsubject : IsLine "Subject: " := .of_all (by decide)
  have hspace : IsLine " " := .of_all (by decide)
  have hlabel : IsLine "Branch: " := .of_all (by decide)
  have hempty : IsLine "" := .of_all (by decide)
  have hbefore : IsLine ("Subject: " ++ r.branch ++ " ") :=
    (Text.isLine_append ((Text.isLine_append hsubject).mpr hbranch)).mpr hspace
  rw [render_eq, show 6 = (r.headerLines ++ [""]).length from rfl, Text.take_linesOf_iff]
  simp only [headerLines, List.forall_mem_append, List.forall_mem_cons, List.not_mem_nil,
    false_implies, implies_true, and_true, true_and, Text.isLine_append hfrom,
    Text.isLine_append hto, Text.isLine_append hbefore, Text.isLine_append hlabel, htype, hbranch,
    hempty]

/-! ## Reading a report back -/

/-- What the header shows holds no line feed. -/
structure Flat (r : Report) : Prop where
  sender : '\n' ∉ r.sender.toList
  recipient : '\n' ∉ r.recipient.toList
  branch : '\n' ∉ r.branch.toList
  hash : '\n' ∉ r.hash.toList

variable {r s : Report}

theorem Flat.not_mem_headerLines (h : r.Flat) : ∀ line ∈ r.headerLines, '\n' ∉ line.toList := by
  simp [headerLines, String.toList_append, h.sender, h.recipient, h.branch, h.hash]

theorem ne_empty_of_mem_headerLines : ∀ line ∈ r.headerLines, line ≠ "" := by
  simp only [headerLines, List.forall_mem_cons, ne_eq, String.append_eq_empty_iff]
  simp

/-- The lines of the header come first, then an empty one, and then the body. -/
theorem pieces_render (h : r.Flat) :
    Text.pieces r.render = r.headerLines ++ "" :: Text.pieces r.body := by
  have hfeeds : ∀ line ∈ r.headerLines ++ [""], '\n' ∉ line.toList :=
    List.forall_mem_append.mpr ⟨h.not_mem_headerLines, by simp⟩
  rw [render_eq, Text.pieces_unlines_append hfeeds, List.append_assoc, List.singleton_append]

/-- The lines of the header tell all that they show: the branch has a line of its own. -/
theorem headerLines_eq_iff : r.headerLines = s.headerLines ↔
    r.sender = s.sender ∧ r.recipient = s.recipient ∧ r.branch = s.branch ∧ r.hash = s.hash := by
  constructor
  · intro h
    simp only [headerLines, List.cons.injEq, String.append_right_inj, and_true, true_and] at h
    obtain ⟨hsender, hrecipient, hsubject, hbranch⟩ := h
    rw [hbranch, String.append_right_inj] at hsubject
    exact ⟨hsender, hrecipient, hbranch, hsubject⟩
  · rintro ⟨hsender, hrecipient, hbranch, hhash⟩
    rw [headerLines, headerLines, hsender, hrecipient, hbranch, hhash]

/-- **A report is read back from its text**, if what the header shows holds no line feed: two reports
have the same text if and only if they show the same in their headers and have the same body. The
header is what stands before the first empty line, and the body what stands behind it. -/
theorem render_read (hr : r.Flat) (hs : s.Flat) :
    (r.render = s.render ↔
      r.sender = s.sender ∧ r.recipient = s.recipient ∧ r.branch = s.branch ∧ r.hash = s.hash ∧
        r.whatChanged ++ "\n\n" ++ r.diff = s.whatChanged ++ "\n\n" ++ s.diff) ∧
    (Text.pieces r.render).takeWhile (· != "") =
      ["From: " ++ r.sender, "To: " ++ r.recipient, "Content-type: text/plain",
        "Subject: " ++ r.branch ++ " " ++ r.hash, "Branch: " ++ r.branch] ∧
    (Text.pieces r.render).dropWhile (· != "") =
      "" :: Text.pieces (r.whatChanged ++ "\n\n" ++ r.diff) := by
  have hlines : ∀ line ∈ r.headerLines, (line != "") = true := fun line hline =>
    bne_iff_ne.mpr (ne_empty_of_mem_headerLines line hline)
  refine ⟨?_, ?_, ?_⟩
  · constructor
    · intro h
      have hpieces : r.headerLines ++ "" :: Text.pieces r.body =
          s.headerLines ++ "" :: Text.pieces s.body := by
        rw [← pieces_render hr, ← pieces_render hs, h]
      -- Both headers have five lines, so they end at the same place.
      obtain ⟨hheader, hrest⟩ := List.append_inj hpieces rfl
      obtain ⟨hsender, hrecipient, hbranch, hhash⟩ := headerLines_eq_iff.mp hheader
      exact ⟨hsender, hrecipient, hbranch, hhash, Text.pieces_injective (List.cons.inj hrest).2⟩
    · rintro ⟨hsender, hrecipient, hbranch, hhash, hbody⟩
      have hheader : r.headerLines = s.headerLines :=
        headerLines_eq_iff.mpr ⟨hsender, hrecipient, hbranch, hhash⟩
      rw [render_eq, render_eq, hheader, body, hbody, body]
  · rw [pieces_render hr, List.takeWhile_append_of_pos hlines, List.takeWhile_cons_of_neg (by simp),
      List.append_nil]
    rfl
  · rw [pieces_render hr, List.dropWhile_append_of_pos hlines, List.dropWhile_cons_of_neg (by simp)]
    rfl

/-- Two reports with the same subject and bodies that go on with a header: the texts differ. -/
theorem render_read_spaced :
    let r : Report := { sender := "a", recipient := "b", branch := "m", hash := "n c"
                        whatChanged := "Branch: m n\n", diff := "" }
    let s : Report := { r with branch := "m n", hash := "c", whatChanged := "\n\n", diff := "From: a" }
    r.Flat ∧ s.Flat ∧
      (r.render = s.render ↔
        r.sender = s.sender ∧ r.recipient = s.recipient ∧ r.branch = s.branch ∧ r.hash = s.hash ∧
          r.whatChanged ++ "\n\n" ++ r.diff = s.whatChanged ++ "\n\n" ++ s.diff) ∧
      (Text.pieces r.render).takeWhile (· != "") =
        ["From: a", "To: b", "Content-type: text/plain", "Subject: m n c", "Branch: m"] ∧
      (Text.pieces r.render).dropWhile (· != "") = "" :: Text.pieces "Branch: m n\n\n\n" := by
  intro r s
  have hr : r.Flat := ⟨by decide, by decide, by decide, by decide⟩
  have hs : s.Flat := ⟨by decide, by decide, by decide, by decide⟩
  exact ⟨hr, hs, render_read hr hs⟩

end CommitReports.Report
