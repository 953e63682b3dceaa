import CommitReports.Git.RefName
import CommitReports.Proofs.Path.Segments

/-!
# Spellings of branch names

A name with an empty segment, such as one with two slashes in a row, is not valid, and
it stays so whatever is put in front of it. A branch is found under such a spelling
all the same, for `ofBranch?` drops the slashes that say nothing. What a branch can be
found under holds none of the signs of a revision's steps (`isNameChar_of_ofBranch?`,
`hasPair_of_ofBranch?`), and without an empty segment it is spelled as in the name of
the reference (`eq_of_ofBranch?`).
-/

namespace CommitReports

/-! ## Names of references -/

namespace Git.RefName

open CommitReports.Path

theorem mem_of_hasPair {a b : Char} {cs : List Char} (h : hasPair a b cs = true) : a ∈ cs := by
  fun_induction hasPair a b cs with
  | case1 x y rest ih =>
    rw [Bool.or_eq_true, Bool.and_eq_true, beq_iff_eq] at h
    rcases h with ⟨rfl, -⟩ | hrest
    · exact List.mem_cons_self
    · exact List.mem_cons_of_mem _ (ih hrest)
  | case2 => cases h

theorem hasPair_cons {a b : Char} (c : Char) {cs : List Char} (h : hasPair a b cs = true) :
    hasPair a b (c :: cs) = true := by
  cases cs with
  | nil => cases h
  | cons d cs => rw [hasPair, h, Bool.or_true]

/-- Characters that follow each other, neither of them a slash, do so in a segment. -/
theorem exists_hasPair_segment {a b : Char} (ha : a ≠ '/') (hb : b ≠ '/') {cs : List Char}
    (h : hasPair a b cs = true) : ∃ segment ∈ segments cs, hasPair a b segment = true := by
  induction cs with
  | nil => cases h
  | cons c cs ih =>
    by_cases hc : c = '/'
    · subst hc
      have hrest : hasPair a b cs = true := by
        cases cs with
        | nil => cases h
        | cons d cs => simpa [hasPair, Ne.symm ha] using h
      obtain ⟨segment, hmem, hpair⟩ := ih hrest
      exact ⟨segment, List.mem_cons_of_mem _ hmem, hpair⟩
    · obtain ⟨first, more, hcs, hcons⟩ := segments_cons hc cs
      rw [hcons]
      rw [hcs] at ih
      cases cs with
      | nil => cases h
      | cons d cs =>
        rw [hasPair, Bool.or_eq_true, Bool.and_eq_true, beq_iff_eq, beq_iff_eq] at h
        rcases h with ⟨rfl, rfl⟩ | hrest
        · obtain ⟨second, others, -, hsecond⟩ := segments_cons hb cs
          rw [hsecond] at hcs
          obtain ⟨rfl, rfl⟩ := List.cons.inj hcs
          exact ⟨_, List.mem_cons_self, by simp [hasPair]⟩
        · obtain ⟨segment, hmem, hpair⟩ := ih hrest
          rcases List.mem_cons.mp hmem with rfl | hmore
          · exact ⟨_, List.mem_cons_self, hasPair_cons c hpair⟩
          · exact ⟨segment, List.mem_cons_of_mem _ hmore, hpair⟩

theorem segments?_eq_some {text : String} {names : List (List Char)}
    (h : segments? text = some names) :
    names = (segments text.toList).filter (fun segment => !segment.isEmpty) ∧
      ∀ segment ∈ names, isSegment segment = true := by
  unfold segments? at h
  dsimp only at h
  split at h
  · cases h
  next hspelled =>
    cases h
    simp only [Bool.not_eq_true, Bool.or_eq_false_iff, Bool.not_eq_false'] at hspelled
    exact ⟨rfl, List.all_eq_true.mp hspelled.2⟩

/-- A name is what the segments of its spelling, the empty ones left out, make up. -/
theorem normalize?_eq_some {text ref : String} (h : normalize? text = some ref) :
    ∃ names, segments? text = some names ∧ names ≠ [] ∧ ref.toList = unsegments names := by
  unfold normalize? at h
  split at h
  · cases h
  · cases h
  next name hnames =>
    split at h
    · cases h
      exact ⟨[name], hnames, by simp, String.toList_ofList⟩
    · cases h
  next first rest _ hnames =>
    split at h
    · cases h
    · cases h
      exact ⟨first :: rest, hnames, by simp, String.toList_ofList⟩

/-- A valid name has no empty segment. -/
theorem empty_not_mem_of_isValid {text : String} (h : isValid text = true) :
    [] ∉ segments text.toList := by
  obtain ⟨names, hnames, hne, htext⟩ := normalize?_eq_some (eq_of_beq h)
  obtain ⟨hfilter, -⟩ := segments?_eq_some hnames
  have hslash : ∀ segment ∈ names, '/' ∉ segment := by
    intro segment hmem
    rw [hfilter] at hmem
    exact slash_not_mem_segments segment (List.mem_filter.mp hmem).1
  rw [htext, segments_unsegments hne hslash, hfilter]
  simp

/-- A text without an empty segment spells no name but itself. -/
theorem eq_of_normalize? {text ref : String} (hplain : [] ∉ segments text.toList)
    (h : normalize? text = some ref) : ref = text := by
  obtain ⟨names, hnames, -, href⟩ := normalize?_eq_some h
  have hall : (segments text.toList).filter (fun segment => !segment.isEmpty) =
      segments text.toList :=
    List.filter_eq_self.mpr fun segment hmem => by
      cases segment with
      | nil => exact absurd hmem hplain
      | cons c cs => rfl
  rw [← String.toList_inj, href, (segments?_eq_some hnames).1, hall, unsegments_segments]

/-! ## Names of branches -/

variable {name ref : String}

theorem ne_empty_of_ofBranch? (h : ofBranch? name = some ref) : name ≠ "" := by
  have hempty : ofBranch? "" = none := by decide +kernel
  rintro rfl
  rw [hempty] at h
  cases h

/-- The segments that a branch is found under are those of a name, or empty. -/
theorem isSegment_of_ofBranch? (h : ofBranch? name = some ref) :
    ∀ segment ∈ segments name.toList, segment ≠ [] → isSegment segment = true := by
  intro segment hmem hne
  obtain ⟨names, hnames, -, -⟩ := normalize?_eq_some h
  obtain ⟨hfilter, hall⟩ := segments?_eq_some hnames
  refine hall segment ?_
  have hmem' : segment ∈ (segments name.toList).filter fun segment => !segment.isEmpty :=
    List.mem_filter.mpr ⟨hmem, by simpa using hne⟩
  rw [← filter_segments_dropWhile] at hmem'
  rw [hfilter, String.toList_append, String.toList_ofList]
  have hheads : heads.toList = "refs/heads".toList ++ ['/'] := by decide
  rw [hheads, List.append_assoc, List.singleton_append, segments_append, List.filter_append]
  exact List.mem_append_right _ hmem'

theorem isNameChar_of_ofBranch? (h : ofBranch? name = some ref) {c : Char} (hc : c ≠ '/')
    (hmem : c ∈ name.toList) : isNameChar c = true := by
  obtain ⟨segment, hsegment, hin⟩ := mem_segments_of_mem hc hmem
  have hname := isSegment_of_ofBranch? h segment hsegment (List.ne_nil_of_mem hin)
  simp only [isSegment, Bool.and_eq_true, List.all_eq_true] at hname
  exact hname.1.1.1.2 c hin

theorem hasPair_of_ofBranch? (h : ofBranch? name = some ref) :
    hasPair '@' '\x7b' name.toList = false := by
  rw [← Bool.not_eq_true]
  intro hpair
  obtain ⟨segment, hsegment, hin⟩ := exists_hasPair_segment (by decide) (by decide) hpair
  have hne : segment ≠ [] := by
    rintro rfl
    cases hin
  have hname := isSegment_of_ofBranch? h segment hsegment hne
  simp [isSegment, hin] at hname

/-- A branch that is found under a name without empty segments is the reference of that name. -/
theorem eq_of_ofBranch? (hplain : [] ∉ segments name.toList) (h : ofBranch? name = some ref) :
    ref = heads ++ name ∧ isValid ref = true := by
  have hdrop : name.toList.dropWhile (· == '/') = name.toList := by
    cases hname : name.toList with
    | nil => rfl
    | cons c cs =>
      refine List.dropWhile_cons_of_neg fun hc => ?_
      rw [hname, eq_of_beq hc] at hplain
      exact hplain List.mem_cons_self
  unfold ofBranch? at h
  rw [hdrop, String.ofList_toList] at h
  have hsegments : [] ∉ segments (heads ++ name).toList := by
    have hheads : heads.toList = "refs/heads".toList ++ ['/'] := by decide
    rw [String.toList_append, hheads, List.append_assoc, List.singleton_append, segments_append,
      List.mem_append]
    rintro (hfront | hrest)
    · revert hfront
      decide
    · exact hplain hrest
  have href := eq_of_normalize? hsegments h
  refine ⟨href, ?_⟩
  rw [href] at h ⊢
  exact beq_iff_eq.mpr h

end Git.RefName

end CommitReports
