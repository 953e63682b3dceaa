import CommitReports.Path

/-!
# Segments of texts

A text is cut at its slashes into segments, and it is its segments with the slashes
put back (`unsegments_segments`, `segments_unsegments`). A slash between two texts
keeps their segments apart (`segments_append`); any other character goes into the
first segment (`segments_cons`).
-/

namespace CommitReports.Path

theorem segments_ne_nil (cs : List Char) : segments cs ≠ [] := by
  fun_induction segments cs <;> simp

/-- A character other than a slash goes into the first segment. -/
theorem segments_cons {c : Char} (hc : c ≠ '/') (cs : List Char) :
    ∃ segment more, segments cs = segment :: more ∧ segments (c :: cs) = (c :: segment) :: more := by
  obtain ⟨segment, more, hcs⟩ := List.exists_cons_of_ne_nil (segments_ne_nil cs)
  refine ⟨segment, more, hcs, ?_⟩
  rw [segments]
  · rw [hcs]
  · exact hc

theorem segments_append (front rest : List Char) :
    segments (front ++ '/' :: rest) = segments front ++ segments rest := by
  induction front with
  | nil => rfl
  | cons c front ih =>
    by_cases hc : c = '/'
    · subst hc
      rw [List.cons_append, segments, segments, ih, List.cons_append]
    · obtain ⟨segment, more, hfront, hcons⟩ := segments_cons hc front
      obtain ⟨segment', more', happend, hcons'⟩ := segments_cons hc (front ++ '/' :: rest)
      rw [ih, hfront, List.cons_append] at happend
      obtain ⟨rfl, rfl⟩ := List.cons.inj happend
      rw [List.cons_append, hcons', hcons, List.cons_append]

theorem slash_not_mem_segments {cs : List Char} : ∀ segment ∈ segments cs, '/' ∉ segment := by
  induction cs with
  | nil => simp [segments]
  | cons c cs ih =>
    by_cases hc : c = '/'
    · subst hc
      rw [segments]
      exact List.forall_mem_cons.mpr ⟨List.not_mem_nil, ih⟩
    · obtain ⟨segment, more, hcs, hcons⟩ := segments_cons hc cs
      rw [hcs, List.forall_mem_cons] at ih
      rw [hcons]
      exact List.forall_mem_cons.mpr ⟨by simp [ih.1, Ne.symm hc], ih.2⟩

theorem segments_eq_singleton {segment : List Char} (h : '/' ∉ segment) :
    segments segment = [segment] := by
  induction segment with
  | nil => rfl
  | cons c cs ih =>
    obtain ⟨hc, hcs⟩ := List.ne_and_not_mem_of_not_mem_cons h
    obtain ⟨first, more, hfirst, hcons⟩ := segments_cons (Ne.symm hc) cs
    rw [ih hcs] at hfirst
    obtain ⟨rfl, rfl⟩ := List.cons.inj hfirst
    exact hcons

theorem unsegments_cons {segment : List Char} {more : List (List Char)} (hmore : more ≠ []) :
    unsegments (segment :: more) = segment ++ '/' :: unsegments more := by
  cases more with
  | nil => exact absurd rfl hmore
  | cons next more => rfl

theorem unsegments_append {front rest : List (List Char)} (hfront : front ≠ []) (hrest : rest ≠ []) :
    unsegments (front ++ rest) = unsegments front ++ '/' :: unsegments rest := by
  induction front with
  | nil => exact absurd rfl hfront
  | cons segment more ih =>
    rw [List.cons_append, unsegments_cons (List.append_ne_nil_of_right_ne_nil more hrest)]
    cases more with
    | nil => rfl
    | cons next more =>
      rw [ih (List.cons_ne_nil next more), unsegments_cons (List.cons_ne_nil next more),
        List.append_assoc, List.cons_append]

/-- What is joined from segments has these segments. -/
theorem segments_unsegments {parts : List (List Char)} (hne : parts ≠ [])
    (h : ∀ segment ∈ parts, '/' ∉ segment) : segments (unsegments parts) = parts := by
  induction parts with
  | nil => exact absurd rfl hne
  | cons segment more ih =>
    obtain ⟨hsegment, hmore⟩ := List.forall_mem_cons.mp h
    cases more with
    | nil => exact segments_eq_singleton hsegment
    | cons next more =>
      rw [unsegments_cons (by simp), segments_append, segments_eq_singleton hsegment,
        ih (by simp) hmore, List.singleton_append]

/-- A text is its segments, joined. -/
theorem unsegments_segments (cs : List Char) : unsegments (segments cs) = cs := by
  induction cs with
  | nil => rfl
  | cons c cs ih =>
    by_cases hc : c = '/'
    · subst hc
      rw [segments, unsegments_cons (segments_ne_nil cs), ih, List.nil_append]
    · obtain ⟨segment, more, hcs, hcons⟩ := segments_cons hc cs
      rw [hcs] at ih
      rw [hcons, ← ih]
      cases more with
      | nil => rfl
      | cons next more => rfl

/-- Each character of a text but its slashes is in one of its segments. -/
theorem mem_segments_of_mem {c : Char} (hc : c ≠ '/') {cs : List Char} (h : c ∈ cs) :
    ∃ segment ∈ segments cs, c ∈ segment := by
  induction cs with
  | nil => exact nomatch h
  | cons d cs ih =>
    by_cases hd : d = '/'
    · subst hd
      obtain ⟨segment, hmem, hin⟩ := ih ((List.mem_cons.mp h).resolve_left hc)
      exact ⟨segment, List.mem_cons_of_mem _ hmem, hin⟩
    · obtain ⟨first, more, hcs, hcons⟩ := segments_cons hd cs
      rw [hcons]
      rcases List.mem_cons.mp h with rfl | hrest
      · exact ⟨c :: first, List.mem_cons_self, List.mem_cons_self⟩
      · obtain ⟨segment, hmem, hin⟩ := ih hrest
        rw [hcs] at hmem
        rcases List.mem_cons.mp hmem with rfl | hmore
        · exact ⟨d :: segment, List.mem_cons_self, List.mem_cons_of_mem _ hin⟩
        · exact ⟨segment, List.mem_cons_of_mem _ hmore, hin⟩

theorem slash_mem_of_empty_segment {cs : List Char} (h : [] ∈ segments cs) (hne : cs ≠ []) :
    '/' ∈ cs := by
  refine Decidable.byContradiction fun hslash => ?_
  rw [segments_eq_singleton hslash, List.mem_singleton] at h
  exact hne h.symm

/-- Slashes at the front of a text add no more than empty segments. -/
theorem filter_segments_dropWhile (cs : List Char) :
    (segments (cs.dropWhile (· == '/'))).filter (fun segment => !segment.isEmpty) =
      (segments cs).filter fun segment => !segment.isEmpty := by
  induction cs with
  | nil => rfl
  | cons c cs ih =>
    by_cases hc : c = '/'
    · subst hc
      rw [List.dropWhile_cons_of_pos (by rfl), ih, segments, List.filter_cons_of_neg (by simp)]
    · rw [List.dropWhile_cons_of_neg (by simpa using hc)]

end CommitReports.Path
