import CommitReports.Text.Blank
import CommitReports.Text.Lines

/-!
# Fields and lines, written and read back

Two fields with a space between them are read as these two fields
(`fields_pair`), and lines that hold no line end are read as these lines from
the text that has each of them (`linesOf_unlines`). In turn a field never is
empty and never holds white space (`mem_fields`), so every field can be written
and read again; only blank lines have none (`fields_eq_nil_iff`).

Texts can be put together line by line: if the first one is ended, the lines of both are
those of the first one and those of the second one (`linesOf_append`).
-/

namespace CommitReports.Text

/-! ## Fields -/

/-- A text that can stand as a field of a line: it is not empty and has no white space. -/
def IsField (text : String) : Prop := text ≠ "" ∧ ∀ c ∈ text.toList, isBlank c = false

private theorem words_of_not_blank :
    ∀ {cs : List Char}, cs ≠ [] → (∀ c ∈ cs, isBlank c = false) → words cs = [cs] := by
  intro cs
  induction cs with
  | nil => exact fun h => absurd rfl h
  | cons c cs ih =>
    intro _ h
    have hc := h c List.mem_cons_self
    cases cs with
    | nil => simp [words, hc]
    | cons d cs =>
      have hd := h d (List.mem_cons_of_mem _ List.mem_cons_self)
      simp [words, hc, hd, ih (List.cons_ne_nil _ _) fun x hx => h x (List.mem_cons_of_mem _ hx)]

/-- A run of characters that are no white space is the first word of what begins with it. -/
private theorem words_append {b : List Char} {blank : Char} (hblank : isBlank blank = true)
    (hb : b ≠ []) : ∀ {a : List Char}, a ≠ [] → (∀ c ∈ a, isBlank c = false) →
      words (a ++ blank :: b) = a :: words b := by
  intro a
  induction a with
  | nil => exact fun h => absurd rfl h
  | cons c a ih =>
    intro _ h
    have hc := h c List.mem_cons_self
    cases a with
    | nil =>
      cases b with
      | nil => exact absurd rfl hb
      | cons d b => simp [words, hc, hblank]
    | cons d a =>
      have hd := h d (List.mem_cons_of_mem _ List.mem_cons_self)
      have hrest := ih (List.cons_ne_nil _ _) fun x hx => h x (List.mem_cons_of_mem _ hx)
      rw [List.cons_append] at hrest
      simp [words, hc, hd, hrest]

/-- Two fields with a space between them are read as these two. -/
theorem fields_pair {first second : String} (hfirst : IsField first) (hsecond : IsField second) :
    fields (first ++ " " ++ second) = [first, second] := by
  have hne : ∀ {text : String}, text ≠ "" → text.toList ≠ [] := fun h hnil =>
    h (String.toList_eq_nil_iff.mp hnil)
  have hlist : (first ++ " " ++ second).toList = first.toList ++ ' ' :: second.toList := by
    simp [String.toList_append]
  rw [fields, hlist, words_append (by decide) (hne hsecond.1) (hne hfirst.1) hfirst.2,
    words_of_not_blank (hne hsecond.1) hsecond.2]
  simp

/-- Words are not empty and hold no white space. -/
private theorem mem_words {word : List Char} :
    ∀ {cs : List Char}, word ∈ words cs → word ≠ [] ∧ ∀ c ∈ word, isBlank c = false := by
  intro cs
  -- Only in the last case a word grows, by a character that is no white space.
  fun_induction words cs generalizing word with
  | case1 => nofun
  | case2 => nofun
  | case3 c hc => simp_all
  | case4 c d rest hc ih => exact ih
  | case5 c d rest hc hd ih =>
    intro h
    rcases List.mem_cons.mp h with rfl | h
    · simpa using hc
    · exact ih h
  | case6 c d rest hc hd hnil ih =>
    intro h
    simp_all
  | case7 c d rest hc hd first more heq ih =>
    intro h
    rcases List.mem_cons.mp h with rfl | h
    · have hmem : first ∈ words (d :: rest) := by
        rw [heq]
        exact List.mem_cons_self
      have hfirst := ih hmem
      refine ⟨List.cons_ne_nil _ _, fun x hx => ?_⟩
      rcases List.mem_cons.mp hx with rfl | hx
      · simpa using hc
      · exact hfirst.2 x hx
    · exact ih (by rw [heq]; exact List.mem_cons_of_mem _ h)

/-- The fields of a line can stand as fields. -/
theorem mem_fields {line field : String} (h : field ∈ fields line) : IsField field := by
  obtain ⟨word, hword, rfl⟩ := List.mem_map.mp h
  obtain ⟨hne, hblank⟩ := mem_words hword
  refine ⟨fun hempty => hne ?_, by simpa using hblank⟩
  simpa using congrArg String.toList hempty

private theorem words_eq_nil_iff {cs : List Char} :
    words cs = [] ↔ ∀ c ∈ cs, isBlank c = true := by
  fun_induction words cs with
  | case1 => simp
  | case2 c hc => simp [hc]
  | case3 c hc => simp [hc]
  | case4 c d rest hc ih => rw [ih, List.forall_mem_cons (a := c), and_iff_right hc]
  | case5 c d rest hc hd ih => simp [hc]
  | case6 c d rest hc hd hnil ih => simp [hc]
  | case7 c d rest hc hd first more heq ih => simp [hc]

/-- A line has no fields if and only if it is blank. -/
theorem fields_eq_nil_iff {line : String} : fields line = [] ↔ allBlank line = true := by
  rw [fields, List.map_eq_nil_iff, words_eq_nil_iff, allBlank, List.all_eq_true]

/-! ## Lines -/

/-- A line without line ends is the first line of a text that begins with it. -/
private theorem lines_append {rest : List Char} :
    ∀ {line : List Char}, (∀ c ∈ line, c ≠ '\n' ∧ c ≠ '\r') →
      lines (line ++ '\n' :: rest) = line :: lines rest := by
  intro line
  induction line with
  | nil => intro _; simp [lines]
  | cons c line ih =>
    intro h
    obtain ⟨hfeed, hreturn⟩ := h c List.mem_cons_self
    have hline := ih fun x hx => h x (List.mem_cons_of_mem _ hx)
    rw [List.cons_append, lines, hline]
    · exact hfeed
    · exact fun _ h => absurd h hreturn

theorem toList_unlines (ls : List String) :
    (unlines ls).toList = ls.flatMap fun line => line.toList ++ ['\n'] := by
  suffices h : ∀ text : String, (ls.foldl (fun text line => text ++ line ++ "\n") text).toList =
      text.toList ++ ls.flatMap fun line => line.toList ++ ['\n'] by
    simpa [unlines] using h ""
  induction ls with
  | nil => simp
  | cons line ls ih =>
    intro text
    rw [List.foldl_cons, ih]
    simp [String.toList_append]

theorem unlines_append (first second : List String) :
    unlines (first ++ second) = unlines first ++ unlines second := by
  refine String.toList_inj.mp ?_
  rw [String.toList_append, toList_unlines, toList_unlines, toList_unlines, List.flatMap_append]

/-- Lines without line ends are read back. -/
theorem linesOf_unlines {ls : List String}
    (h : ∀ line ∈ ls, ∀ c ∈ line.toList, c ≠ '\n' ∧ c ≠ '\r') : linesOf (unlines ls) = ls := by
  rw [linesOf, toList_unlines]
  induction ls with
  | nil => rfl
  | cons line ls ih =>
    rw [List.flatMap_cons, List.append_assoc, List.singleton_append,
      lines_append (h line List.mem_cons_self), List.map_cons, String.ofList_toList,
      ih fun other hother => h other (List.mem_cons_of_mem _ hother)]

/-- A text that is empty, or ends with a line feed. -/
def Ended (text : String) : Prop := text = "" ∨ ∃ front, text = front ++ "\n"

private theorem lines_ne_nil {cs : List Char} (h : cs ≠ []) : lines cs ≠ [] := by
  fun_cases lines cs <;> simp_all

/-- A character that ends no line goes to the first line of what follows. -/
private theorem lines_cons {c : Char} {cs : List Char} (hfeed : c ≠ '\n')
    (hreturn : ∀ rest, c = '\r' → cs ≠ '\n' :: rest) :
    lines (c :: cs) =
      match lines cs with
      | [] => [[c]]
      | line :: more => (c :: line) :: more :=
  lines.eq_4 c cs hfeed hreturn

private theorem lines_append_lineFeed (rest : List Char) (cs : List Char) :
    lines (cs ++ '\n' :: rest) = lines (cs ++ ['\n']) ++ lines rest := by
  fun_induction lines cs with
  | case1 => simp [lines]
  | case2 cs ih => simp [lines, ih]
  | case3 cs ih => simp [lines, ih]
  | case4 c cs hfeed hreturn hnil ih =>
    -- Only after the last character there is no line; it may be the first one of a line end.
    obtain rfl : cs = [] := Decidable.byContradiction fun hne => lines_ne_nil hne hnil
    by_cases hc : c = '\r'
    · subst hc
      simp [lines]
    · simp [lines_cons hfeed fun _ h => absurd h hc, lines]
  | case5 c cs hfeed hreturn line more hlines ih =>
    have hreturn' : ∀ tail rest, c = '\r' → cs ++ tail ≠ '\n' :: rest := by
      cases cs with
      | nil => cases hlines
      | cons d cs =>
        rintro tail rest hc heq
        obtain ⟨rfl, -⟩ := List.cons.inj heq
        exact hreturn cs hc rfl
    have hne : lines (cs ++ ['\n']) ≠ [] := lines_ne_nil (by simp)
    rw [List.cons_append, List.cons_append, lines_cons hfeed (hreturn' _), lines_cons hfeed (hreturn' _),
      ih]
    cases hfirst : lines (cs ++ ['\n']) with
    | nil => exact absurd hfirst hne
    | cons first others => rfl

/-- The lines of two texts, the first of which is ended, are the lines of both together. -/
theorem linesOf_append {first : String} (h : Ended first) (second : String) :
    linesOf (first ++ second) = linesOf first ++ linesOf second := by
  rcases h with rfl | ⟨front, rfl⟩
  · simp [linesOf, lines]
  · have hlines := lines_append_lineFeed second.toList front.toList
    have hfeed : "\n".toList = ['\n'] := rfl
    simp only [linesOf, String.toList_append, hfeed, ← List.map_append, ← hlines]
    simp

/-- A line that holds no line feed is the only line of its own text, unless it is empty. -/
private theorem lines_of_not_mem {cs : List Char} (h : '\n' ∉ cs) (hne : cs ≠ []) :
    lines cs = [cs] := by
  induction cs with
  | nil => exact absurd rfl hne
  | cons c cs ih =>
    obtain ⟨hc, hrest⟩ : '\n' ≠ c ∧ '\n' ∉ cs := by simpa using h
    have hreturn : ∀ rest, c = '\r' → cs ≠ '\n' :: rest := by
      rintro rest - rfl
      exact hrest List.mem_cons_self
    rw [lines_cons (Ne.symm hc) hreturn]
    cases cs with
    | nil => rfl
    | cons d cs => rw [ih hrest (List.cons_ne_nil _ _)]

theorem not_mem_of_mem_lines {line cs : List Char} (h : line ∈ lines cs) : '\n' ∉ line := by
  fun_induction lines cs generalizing line with
  | case1 => cases h
  | case2 cs ih =>
    rcases List.mem_cons.mp h with rfl | h
    · simp
    · exact ih h
  | case3 cs ih =>
    rcases List.mem_cons.mp h with rfl | h
    · simp
    · exact ih h
  | case4 c cs hfeed hreturn hnil ih =>
    obtain rfl := List.mem_singleton.mp h
    simpa using Ne.symm hfeed
  | case5 c cs hfeed hreturn first more hlines ih =>
    rcases List.mem_cons.mp h with rfl | h
    · have hfirst := ih (by rw [hlines]; exact List.mem_cons_self)
      simpa using ⟨Ne.symm hfeed, hfirst⟩
    · exact ih (by rw [hlines]; exact List.mem_cons_of_mem _ h)

/-- A line of a text that is no empty one is the only line of its own text. -/
theorem linesOf_line {text line : String} (h : line ∈ linesOf text) :
    linesOf line = if line = "" then [] else [line] := by
  obtain ⟨cs, hcs, rfl⟩ := List.mem_map.mp h
  split
  next hempty => rw [hempty, linesOf, String.toList_empty, lines, List.map_nil]
  next hne =>
    have hcs' : cs ≠ [] := fun hnil => hne (by rw [hnil])
    rw [linesOf, String.toList_ofList, lines_of_not_mem (not_mem_of_mem_lines hcs) hcs']
    rfl

end CommitReports.Text
