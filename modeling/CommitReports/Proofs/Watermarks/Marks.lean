import CommitReports.Proofs.Text.Fields
import CommitReports.Watermarks
import Mathlib.Data.List.Basic

/-!
# The marks of a state file

`marksOf` gives the branches and hashes that the lines of a state file name. What
is saved is read back as it was: `marksOf` and `render` are inverse to each other
on watermarks whose two names can stand as fields (`marksOf_render`), and the
names that are read always can (`mem_marksOf`).
-/

namespace CommitReports.Watermarks

/-- The branch and the hash that a line names. -/
def Line.mark? : Line → Option (String × String)
  | .mark branch hash => some (branch, hash)
  | _ => none

/-- The branches and hashes that the lines of a state file name, in order. -/
def marksOf (text : String) : List (String × String) :=
  (Text.linesOf text).filterMap fun line => (Line.read line).mark?

/-- The branch and the hash of a watermark. -/
def markOf (watermark : Commit) : String × String := (watermark.branch.name, watermark.hash)

/-- The watermark of a branch and a hash. -/
def ofMark (m : String × String) : Commit := { hash := m.2, branch := ⟨⟨m.1⟩⟩ }

@[simp] theorem markOf_ofMark (m : String × String) : markOf (ofMark m) = m := rfl

@[simp] theorem ofMark_markOf (watermark : Commit) : ofMark (markOf watermark) = watermark := rfl

/-- The names that are read from a line can stand as its fields. -/
theorem Line.read_eq_mark {line branch hash : String} (h : Line.read line = .mark branch hash) :
    Text.IsField branch ∧ Text.IsField hash := by
  unfold Line.read at h
  split at h
  next => cases h
  next b c hfields =>
    cases h
    have hmem : ∀ name, name = branch ∨ name = hash → Text.IsField name := by
      intro name hname
      exact Text.mem_fields (by rw [hfields]; simpa using hname)
    exact ⟨hmem branch (.inl rfl), hmem hash (.inr rfl)⟩
  next => cases h

/-- The names that are read from a state file can stand as fields of its lines. -/
theorem mem_marksOf {text branch hash : String} (h : (branch, hash) ∈ marksOf text) :
    Text.IsField branch ∧ Text.IsField hash := by
  obtain ⟨line, -, hmark⟩ := List.mem_filterMap.mp h
  cases hread : Line.read line with
  | blank => rw [hread] at hmark; cases hmark
  | malformed => rw [hread] at hmark; cases hmark
  | mark b c =>
    rw [hread] at hmark
    cases hmark
    exact Line.read_eq_mark hread

/-- A text that can stand as a field holds no line ends. -/
private theorem not_lineEnd_of_isField {text : String} (h : Text.IsField text) :
    ∀ c ∈ text.toList, c ≠ '\n' ∧ c ≠ '\r' := by
  intro c hc
  have hblank := h.2 c hc
  refine ⟨?_, ?_⟩ <;> rintro rfl <;> exact absurd hblank (by decide)

section Saved

variable {watermarks : List Commit}
  (h : ∀ w ∈ watermarks, Text.IsField w.branch.name ∧ Text.IsField w.hash)

include h

/-- The lines that are saved are those of the watermarks. -/
theorem linesOf_render : Text.linesOf (render watermarks) = watermarks.map Commit.line := by
  refine Text.linesOf_unlines fun line hline c hc => ?_
  obtain ⟨w, hw, rfl⟩ := List.mem_map.mp hline
  simp only [Commit.line, String.toList_append, List.mem_append] at hc
  rcases hc with (hc | hc) | hc
  · exact not_lineEnd_of_isField (h w hw).1 c hc
  · simp only [show " ".toList = [' '] from rfl, List.mem_singleton] at hc
    subst hc
    decide
  · exact not_lineEnd_of_isField (h w hw).2 c hc

/-- A line that was saved names its watermark. -/
theorem read_line {w : Commit} (hw : w ∈ watermarks) :
    Line.read w.line = .mark w.branch.name w.hash := by
  rw [Commit.line, Line.read, Text.fields_pair (h w hw).1 (h w hw).2]

/-- **What is saved is read back as it was.** -/
theorem marksOf_render : marksOf (render watermarks) = watermarks.map markOf := by
  rw [marksOf, linesOf_render h, List.filterMap_map, ← List.filterMap_eq_map]
  refine List.filterMap_congr fun w hw => ?_
  rw [Function.comp_apply, read_line h hw]
  rfl

end Saved

end CommitReports.Watermarks
