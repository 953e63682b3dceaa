import CommitReports.Proofs.Text.Fields
import CommitReports.Report

/-!
# Texts of reports

The text of a report tells on which branch it is: the branch is the first field of
the subject, which stands behind the addresses.
-/

namespace CommitReports.Report

/-- What stands before the subject. -/
private def preamble (r : Report) : String :=
  "From: " ++ r.sender ++ "\nTo: " ++ r.recipient ++ "\nContent-type: text/plain\nSubject: "

private theorem toList_render (r : Report) :
    ∃ rest, r.render.toList = r.preamble.toList ++ (r.branch.toList ++ ' ' :: rest) := by
  refine ⟨(r.hash ++ "\nBranch: " ++ r.branch ++ "\n\n" ++ r.body).toList, ?_⟩
  simp [render, headerLines, preamble, String.join, String.toList_append]

/-- Between the same two addresses, reports with the same text are on the same branch. -/
theorem branch_eq_of_render_eq {r r' : Report} (hsender : r.sender = r'.sender)
    (hrecipient : r.recipient = r'.recipient) (hbranch : Text.IsField r.branch)
    (hbranch' : Text.IsField r'.branch) (h : r.render = r'.render) : r.branch = r'.branch := by
  obtain ⟨rest, hrest⟩ := r.toList_render
  obtain ⟨rest', hrest'⟩ := r'.toList_render
  have hpreamble : r.preamble = r'.preamble := by
    unfold preamble
    rw [hsender, hrecipient]
  have hsubject : r.branch.toList ++ ' ' :: rest = r'.branch.toList ++ ' ' :: rest' := by
    rw [h, hrest', hpreamble] at hrest
    exact (List.append_cancel_left hrest).symm
  -- The branch goes as far as there is no white space.
  have hfirst : ∀ {branch : String} (rest : List Char), Text.IsField branch →
      (branch.toList ++ ' ' :: rest).takeWhile (fun c => !Text.isBlank c) = branch.toList := by
    intro branch rest hfield
    rw [List.takeWhile_append_of_pos fun c hc => by simp [hfield.2 c hc]]
    rw [List.takeWhile_cons_of_neg (by decide), List.append_nil]
  have htoList : r.branch.toList = r'.branch.toList := by
    rw [← hfirst rest hbranch, hsubject, hfirst rest' hbranch']
  exact String.toList_injective htoList

end CommitReports.Report
