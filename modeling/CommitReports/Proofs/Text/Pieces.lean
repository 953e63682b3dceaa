import CommitReports.Proofs.Text.Fields
import Mathlib.Data.List.Basic

/-!
# A text cut at its line feeds

A text is cut at its line feeds and nowhere else (`pieces`): a carriage return stays where it
is. Nothing is lost by that (`pieces_injective`). Lines without line feeds that stand at the
front of a text are its first pieces (`pieces_unlines_append`). A text that ends in a line
feed has an empty last piece, and without this line feed it has all pieces but this one
(`pieces_dropFinalNewline`).
-/

namespace CommitReports.Text

/-- What stands before, between and behind the line feeds of a text. -/
def pieces (text : String) : List String := (text.toList.splitOn '\n').map String.ofList

theorem pieces_injective : Function.Injective pieces := by
  intro text other h
  have hsplit : text.toList.splitOn '\n' = other.toList.splitOn '\n' :=
    List.map_injective_iff.mpr (fun _ _ => String.ofList_inj.mp) h
  have hback : ∀ cs : List Char, ['\n'].intercalate (cs.splitOn '\n') = cs := fun _ =>
    List.intercalate_splitOn _
  rw [← String.toList_inj, ← hback text.toList, hsplit, hback]

theorem pieces_append_lineFeed (front back : String) :
    pieces (front ++ "\n" ++ back) = pieces front ++ pieces back := by
  have hfeed : "\n".toList = ['\n'] := rfl
  simp only [pieces, String.toList_append, hfeed, List.append_assoc, List.singleton_append,
    List.splitOn_append_cons_self, List.map_append]

theorem pieces_empty : pieces "" = [""] := by decide

theorem pieces_append_final (front : String) : pieces (front ++ "\n") = pieces front ++ [""] := by
  rw [← pieces_empty, ← pieces_append_lineFeed, String.append_empty]

theorem pieces_of_not_mem {line : String} (h : '\n' ∉ line.toList) : pieces line = [line] := by
  rw [pieces, List.splitOn_eq_singleton h, List.map_singleton, String.ofList_toList]

private theorem not_mem_of_mem_splitOn {cs piece : List Char} (h : piece ∈ cs.splitOn '\n') :
    '\n' ∉ piece := by
  induction cs generalizing piece with
  | nil => simp_all
  | cons c rest ih =>
    rw [List.splitOn_cons_eq_if_modifyHead] at h
    split at h
    next =>
      rcases List.mem_cons.mp h with rfl | h
      · exact List.not_mem_nil
      · exact ih h
    next hc =>
      have hc : '\n' ≠ c := fun heq => hc (beq_iff_eq.mpr heq.symm)
      cases hrest : rest.splitOn '\n' with
      | nil => simp [hrest] at h
      | cons first more =>
        rw [hrest] at h ih
        rcases List.mem_cons.mp h with rfl | h
        · rw [List.mem_cons]
          exact not_or.mpr ⟨hc, ih List.mem_cons_self⟩
        · exact ih (List.mem_cons_of_mem _ h)

theorem lineFeed_not_mem_pieces {text piece : String} (h : piece ∈ pieces text) :
    '\n' ∉ piece.toList := by
  obtain ⟨cs, hcs, rfl⟩ := List.mem_map.mp h
  rw [String.toList_ofList]
  exact not_mem_of_mem_splitOn hcs

theorem unlines_cons (line : String) (ls : List String) :
    unlines (line :: ls) = line ++ "\n" ++ unlines ls := by
  rw [← List.singleton_append, unlines_append]
  simp [unlines]

/-- Lines at the front of a text are its first pieces. -/
theorem pieces_unlines_append {ls : List String} (h : ∀ line ∈ ls, '\n' ∉ line.toList)
    (rest : String) : pieces (unlines ls ++ rest) = ls ++ pieces rest := by
  induction ls with
  | nil => simp [unlines]
  | cons line ls ih =>
    obtain ⟨hline, hls⟩ := List.forall_mem_cons.mp h
    rw [unlines_cons, String.append_assoc, pieces_append_lineFeed, pieces_of_not_mem hline, ih hls,
      List.singleton_append, List.cons_append]

/-! ## Texts that are ended -/

theorem Ended.append {first second : String} (hfirst : Ended first) (hsecond : Ended second) :
    Ended (first ++ second) := by
  obtain rfl | ⟨front, rfl⟩ := hsecond
  · rwa [String.append_empty]
  · exact .inr ⟨first ++ front, (String.append_assoc ..).symm⟩

theorem ended_join {texts : List String} (h : ∀ text ∈ texts, Ended text) :
    Ended (String.join texts) := by
  induction texts with
  | nil => exact .inl rfl
  | cons text texts ih =>
    obtain ⟨htext, htexts⟩ := List.forall_mem_cons.mp h
    rw [String.join_cons]
    exact htext.append (ih htexts)

theorem ended_unlines (ls : List String) : Ended (unlines ls) := by
  induction ls with
  | nil => exact .inl rfl
  | cons line ls ih =>
    rw [unlines_cons]
    exact Ended.append (.inr ⟨line, rfl⟩) ih

/-- Of a text that ends in a line feed, this line feed is dropped, and the piece behind it. -/
theorem pieces_dropFinalNewline {text : String} (hended : Ended text) (hne : text ≠ "") :
    pieces (dropFinalNewline text) = (pieces text).dropLast := by
  obtain rfl | ⟨front, rfl⟩ := hended
  · exact absurd rfl hne
  · have hends : (front ++ "\n").endsWith "\n" = true :=
      String.Slice.endsWith_string_iff.mpr (by simp)
    have hdrop : dropFinalNewline (front ++ "\n") = front := by
      rw [dropFinalNewline, if_pos hends]
      apply String.toList_inj.mp
      simp
    rw [hdrop, pieces_append_final, List.dropLast_concat]

/-- The pieces that a line feed ends make up a text that is ended. -/
theorem unlines_dropLast_pieces {text : String} (h : Ended text) :
    unlines (pieces text).dropLast = text := by
  obtain rfl | ⟨front, rfl⟩ := h
  · decide
  · have hfeeds : ∀ piece ∈ pieces front, '\n' ∉ piece.toList := fun _ => lineFeed_not_mem_pieces
    have hlines := pieces_unlines_append hfeeds ""
    rw [String.append_empty, pieces_empty] at hlines
    apply pieces_injective
    rw [pieces_append_final, List.dropLast_concat, hlines]

end CommitReports.Text
