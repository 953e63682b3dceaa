import CommitReports.Proofs.Text.Fields

/-!
# Lines, as what stands between line feeds

The lines of a text are read from the front, character by character. They are what a
split at the line feeds gives (`linesOf_eq_feedLines`): each piece that a line feed ends
is a line, without the carriage return at its end if it has one there, and the last piece
is a line, as it stands, unless it is empty. So a carriage return at the very end of a
text, where no line feed follows, belongs to the last line.

A text stands as a line of its own where a line feed follows it, if it holds no line feed
and does not end in a carriage return (`IsLine`). Only such texts are read back from where
they were written (`take_linesOf_iff`).
-/

namespace CommitReports.Text

/-- A piece of text without the carriage return at its end, if it has one; only one is dropped. -/
def withoutReturn (piece : List Char) : List Char :=
  if piece.getLast? = some '\r' then piece.dropLast else piece

/-- The lines that the pieces between line feeds make: a line feed follows each but the last. -/
def linesOfPieces : List (List Char) → List (List Char)
  | [] => []
  | [last] => if last = [] then [] else [last]
  | piece :: next :: more => withoutReturn piece :: linesOfPieces (next :: more)

/-- The lines of a text, by a split at its line feeds. -/
def feedLines (text : String) : List String :=
  (linesOfPieces (text.toList.splitOn '\n')).map String.ofList

theorem linesOfPieces_cons {piece : List Char} {more : List (List Char)} (h : more ≠ []) :
    linesOfPieces (piece :: more) = withoutReturn piece :: linesOfPieces more := by
  cases more with
  | nil => exact absurd rfl h
  | cons next more => rfl

theorem withoutReturn_cons {c : Char} {piece : List Char} (h : c = '\r' → piece ≠ []) :
    withoutReturn (c :: piece) = c :: withoutReturn piece := by
  cases piece with
  | nil =>
    have hc : c ≠ '\r' := fun hc => h hc rfl
    simp [withoutReturn, hc]
  | cons d piece =>
    unfold withoutReturn
    rw [List.getLast?_cons_cons, List.dropLast_cons_cons]
    split <;> rfl

private theorem splitOn_feed (cs : List Char) :
    ('\n' :: cs).splitOn '\n' = [] :: cs.splitOn '\n' := by
  rw [List.splitOn_cons_eq_if_modifyHead, if_pos (beq_self_eq_true _)]

private theorem splitOn_other {c : Char} (cs : List Char) (hc : c ≠ '\n') :
    (c :: cs).splitOn '\n' = (cs.splitOn '\n').modifyHead (c :: ·) := by
  rw [List.splitOn_cons_eq_if_modifyHead, if_neg (by simpa using hc)]

/-- A first piece that is empty and not the only one stands before a line feed. -/
private theorem exists_of_splitOn_eq_nil_cons {cs : List Char} {more : List (List Char)}
    (h : cs.splitOn '\n' = [] :: more) (hmore : more ≠ []) : ∃ rest, cs = '\n' :: rest := by
  cases cs with
  | nil =>
    rw [List.splitOn_nil, List.cons.injEq] at h
    exact absurd h.2.symm hmore
  | cons c rest =>
    by_cases hc : c = '\n'
    · exact ⟨rest, by rw [hc]⟩
    · rw [splitOn_other rest hc] at h
      cases hrest : rest.splitOn '\n' with
      | nil => exact absurd hrest (List.splitOn_ne_nil _ _)
      | cons piece pieces => simp [hrest] at h

/-- A character in front goes to the first line, unless it is part of a line end. -/
private theorem linesOfPieces_grow {c : Char} {cs : List Char} (hfeed : c ≠ '\n')
    (hreturn : ∀ rest, c = '\r' → cs = '\n' :: rest → False) :
    linesOfPieces ((c :: cs).splitOn '\n') =
      match linesOfPieces (cs.splitOn '\n') with
      | [] => [[c]]
      | line :: lines => (c :: line) :: lines := by
  rw [splitOn_other cs hfeed]
  cases hpieces : cs.splitOn '\n' with
  | nil => exact absurd hpieces (List.splitOn_ne_nil _ _)
  | cons piece more =>
    rw [List.modifyHead_cons]
    by_cases hmore : more = []
    · subst hmore
      by_cases hpiece : piece = [] <;> simp [linesOfPieces, hpiece]
    · have hpiece : c = '\r' → piece ≠ [] := by
        intro hc hnil
        obtain ⟨rest, hrest⟩ := exists_of_splitOn_eq_nil_cons (hnil ▸ hpieces) hmore
        exact hreturn rest hc hrest
      rw [linesOfPieces_cons hmore, linesOfPieces_cons hmore, withoutReturn_cons hpiece]

private theorem lines_eq_linesOfPieces (cs : List Char) :
    lines cs = linesOfPieces (cs.splitOn '\n') := by
  fun_induction lines cs with
  | case1 => rfl
  | case2 rest ih =>
    rw [splitOn_feed, linesOfPieces_cons (List.splitOn_ne_nil _ _), ← ih]
    rfl
  | case3 rest ih =>
    rw [splitOn_other _ (by decide), splitOn_feed, List.modifyHead_cons,
      linesOfPieces_cons (List.splitOn_ne_nil _ _), ← ih]
    rfl
  | case4 c cs hfeed hreturn hnil ih => rw [linesOfPieces_grow hfeed hreturn, ← ih, hnil]
  | case5 c cs hfeed hreturn line more hlines ih =>
    rw [linesOfPieces_grow hfeed hreturn, ← ih, hlines]

/-- **The lines of a text are those that a split at its line feeds gives.** -/
theorem linesOf_eq_feedLines (text : String) : linesOf text = feedLines text := by
  rw [linesOf, feedLines, lines_eq_linesOfPieces]

/-- Of two carriage returns before a line feed one is dropped, and none at the end of the text. -/
example : feedLines "a\r\r\n\nb\r" = ["a\r", "", "b\r"] := by decide

/-! ## What stands as a line -/

/-- A text that is one line if a line feed follows it. -/
structure IsLine (text : String) : Prop where
  feed : '\n' ∉ text.toList
  noReturn : text.toList.getLast? ≠ some '\r'

theorem isLine_iff {text : String} :
    IsLine text ↔ '\n' ∉ text.toList ∧ withoutReturn text.toList = text.toList := by
  have hreturn : withoutReturn text.toList = text.toList ↔ text.toList.getLast? ≠ some '\r' := by
    unfold withoutReturn
    split
    next hlast =>
      refine iff_of_false (fun heq => ?_) (absurd hlast)
      have hne : text.toList ≠ [] := by
        intro hnil
        simp [hnil] at hlast
      have hlength := congrArg List.length heq
      rw [List.length_dropLast] at hlength
      have hpos := List.length_pos_iff.mpr hne
      omega
    next hlast => exact iff_of_true rfl hlast
  rw [hreturn]
  exact ⟨fun h => ⟨h.feed, h.noReturn⟩, fun h => ⟨h.1, h.2⟩⟩

/-- A text without line ends is a line. -/
theorem IsLine.of_noEnds {text : String} (h : ∀ c ∈ text.toList, c ≠ '\n' ∧ c ≠ '\r') :
    IsLine text where
  feed hmem := (h _ hmem).1 rfl
  noReturn hlast := (h _ (List.mem_of_getLast? hlast)).2 rfl

theorem IsLine.of_all {text : String}
    (h : text.toList.all (fun c => c != '\n' && c != '\r') = true) : IsLine text := by
  apply IsLine.of_noEnds
  intro c hc
  obtain ⟨hfeed, hreturn⟩ := Bool.and_eq_true_iff.mp (List.all_eq_true.mp h c hc)
  exact ⟨bne_iff_ne.mp hfeed, bne_iff_ne.mp hreturn⟩

theorem IsField.isLine {text : String} (h : IsField text) : IsLine text := by
  apply IsLine.of_noEnds
  intro c hc
  have hblank := h.2 c hc
  constructor <;> intro hend <;> subst hend <;> exact absurd hblank (by decide)

/-- Behind what is a line, exactly the texts that are lines make a line. -/
theorem isLine_append {front text : String} (hfront : IsLine front) :
    IsLine (front ++ text) ↔ IsLine text := by
  have hlast : text.toList = [] ∨
      (front ++ text).toList.getLast? = text.toList.getLast? := by
    rcases List.eq_nil_or_concat text.toList with hnil | ⟨_, _, heq⟩
    · exact .inl hnil
    · exact .inr (by simp [String.toList_append, heq, ← List.append_assoc])
  constructor
  · intro h
    refine ⟨fun hmem => h.feed ?_, fun hreturn => ?_⟩
    · rw [String.toList_append]
      exact List.mem_append_right _ hmem
    · rcases hlast with hnil | hsame
      · simp [hnil] at hreturn
      · exact h.noReturn (hsame.trans hreturn)
  · intro h
    refine ⟨fun hmem => ?_, fun hreturn => ?_⟩
    · rw [String.toList_append, List.mem_append] at hmem
      exact hmem.elim hfront.feed h.feed
    · rcases hlast with hnil | hsame
      · rw [String.toList_append, hnil, List.append_nil] at hreturn
        exact hfront.noReturn hreturn
      · exact h.noReturn (hsame ▸ hreturn)

private theorem lines_pieces {pieces : List (List Char)} (h : ∀ piece ∈ pieces, '\n' ∉ piece)
    (rest : List Char) : lines (pieces.flatMap (· ++ ['\n']) ++ rest) =
      pieces.map withoutReturn ++ lines rest := by
  induction pieces with
  | nil => rfl
  | cons piece pieces ih =>
    obtain ⟨hpiece, hpieces⟩ := List.forall_mem_cons.mp h
    rw [List.flatMap_cons, List.append_assoc, List.append_assoc, List.singleton_append,
      lines_eq_linesOfPieces, List.splitOn_append_cons_self_of_not_mem hpiece,
      linesOfPieces_cons (List.splitOn_ne_nil _ _), ← lines_eq_linesOfPieces, ih hpieces]
    rfl

/-- **Texts are read back from where they were written, one on each line, if and only if each of
them is a line.** -/
theorem take_linesOf_iff {ls : List String} {rest : String} :
    (linesOf (unlines ls ++ rest)).take ls.length = ls ↔ ∀ line ∈ ls, IsLine line := by
  let shown (line : String) : String := String.ofList (withoutReturn line.toList)
  have hread : (∀ line ∈ ls, '\n' ∉ line.toList) →
      (linesOf (unlines ls ++ rest)).take ls.length = ls.map shown := by
    intro hfeeds
    have hpieces : ∀ piece ∈ ls.map String.toList, '\n' ∉ piece := by simpa using hfeeds
    have hlines := lines_pieces hpieces rest.toList
    rw [List.flatMap_map] at hlines
    rw [linesOf, String.toList_append, toList_unlines, hlines, List.map_append,
      List.take_left' (by simp), List.map_map, List.map_map]
    rfl
  have hself : ls.map shown = ls ↔ ∀ line ∈ ls, shown line = line :=
    ⟨fun h => List.map_inj_left.mp (h.trans (List.map_id ls).symm),
      fun h => (List.map_congr_left h).trans (List.map_id ls)⟩
  constructor
  · intro htake line hline
    have hfeeds : ∀ line ∈ ls, '\n' ∉ line.toList := by
      intro line hline
      rw [← htake] at hline
      obtain ⟨cs, hcs, rfl⟩ := List.mem_map.mp (List.mem_of_mem_take hline)
      rw [String.toList_ofList]
      exact not_mem_of_mem_lines hcs
    rw [hread hfeeds, hself] at htake
    refine isLine_iff.mpr ⟨hfeeds line hline, ?_⟩
    simpa [shown] using congrArg String.toList (htake line hline)
  · intro hlines
    rw [hread fun line hline => (hlines line hline).feed, hself]
    intro line hline
    simp only [shown, (isLine_iff.mp (hlines line hline)).2, String.ofList_toList]

end CommitReports.Text
