import CommitReports.Git.RevisionName
import CommitReports.Proofs.Git.RefName
import Mathlib.Data.List.TakeWhile

/-!
# Revisions without steps

A text without the signs that lead on from a revision is a name as a whole
(`RevisionName.ofText?_plain`); so are digits, and the full id of an object. It leads to
the commit that the object of this name is, or has behind it.
-/

namespace CommitReports.Git

/-! ## Plain names -/

namespace RevisionName

variable {text : String}

/-- A text without the signs of steps is a name as it stands. -/
theorem ofText?_plain (hat : text ≠ "@") (hne : text ≠ "")
    (hsigns : ∀ c ∈ text.toList, c ≠ '^' ∧ c ≠ '~' ∧ c ≠ ':')
    (hpair : RefName.hasPair '@' '\x7b' text.toList = false) :
    ofText? text = some { base := text, steps := [] } := by
  have hbase : (text.toList.takeWhile fun c => c != '^' && c != '~') = text.toList := by
    rw [List.takeWhile_eq_self_iff]
    intro c hc
    obtain ⟨hparent, hancestor, -⟩ := hsigns c hc
    simp [hparent, hancestor]
  have hcolon : ':' ∉ text.toList := fun hc => (hsigns ':' hc).2.2 rfl
  have htext : text.toList ≠ [] := by simpa using hne
  unfold ofText?
  rw [if_neg hat]
  simp only [hbase]
  rw [if_neg (by simp [htext, hcolon, hpair]), List.drop_length, readSteps, Option.map_some,
    String.ofList_toList]

/-- Digits are a name as they stand. -/
theorem ofText?_digits (hdigits : ∀ c ∈ text.toList, Text.isHexDigit c = true) (hne : text ≠ "") :
    ofText? text = some { base := text, steps := [] } := by
  have hsign : ∀ c, Text.isHexDigit c = false → c ∉ text.toList := fun c hc hmem =>
    absurd (hdigits c hmem) (by simp [hc])
  refine ofText?_plain ?_ hne (fun c hc => ⟨?_, ?_, ?_⟩) ?_
  · rintro rfl
    exact hsign '@' (by decide) (by decide)
  · exact fun heq => hsign '^' (by decide) (heq ▸ hc)
  · exact fun heq => hsign '~' (by decide) (heq ▸ hc)
  · exact fun heq => hsign ':' (by decide) (heq ▸ hc)
  · rw [← Bool.not_eq_true]
    exact fun hpair => hsign '@' (by decide) (RefName.mem_of_hasPair hpair)

/-- So is the full id of an object. -/
theorem ofText?_id {id : ObjectId} (h : ObjectId.ofText? text = some id) :
    ofText? text = some { base := text, steps := [] } := by
  refine ofText?_digits (ObjectId.isHexDigit_of_ofText? h) ?_
  rintro rfl
  cases h

end RevisionName

/-! ## The commits of plain names -/

theorem ObjectStore.peelTo_commit {store : ObjectStore} {id : ObjectId} {info : CommitInfo}
    (h : store.commit id = .ok info) :
    store.kind? id = some .commit ∧ store.peelTo .commit id = some id := by
  have hkind : store.kind? id = some .commit := by
    unfold kind? commit?
    rw [h]
    unfold commit at h
    split at h
    next => cases h
    next hfound => rw [hfound]; rfl
    next => cases h
  refine ⟨hkind, ?_⟩
  unfold peelTo peel
  rw [hkind]
  rfl

namespace Repository

variable {repository : Repository} {text : String} {id : ObjectId}

/-- A plain name leads to the commit that the object of this name is, or has behind it. -/
theorem commitNamed?_plain (h : RevisionName.ofText? text = some { base := text, steps := [] }) :
    repository.commitNamed? text = some id ↔ ∃ start, repository.objectNamed? text = some start ∧
      (repository.objects.kind? start).isSome ∧ repository.objects.peelTo .commit start = some id := by
  unfold commitNamed?
  rw [h]
  simp only [bind, Option.bind_some, List.foldlM_nil, pure, Option.bind_eq_some_iff,
    Option.isSome_iff_exists, exists_and_right]

/-- What spells the id of a commit, in digits of either case, leads to this commit. -/
theorem commitNamed?_id {info : CommitInfo} (hid : ObjectId.ofText? text = some id)
    (h : repository.objects.commit id = .ok info) : repository.commitNamed? text = some id := by
  obtain ⟨hkind, hpeel⟩ := ObjectStore.peelTo_commit h
  have hcontains : repository.objects.contains id = true := by
    unfold ObjectStore.contains
    unfold ObjectStore.commit at h
    split at h
    next => cases h
    next hfound => rw [hfound]; rfl
    next => cases h
  rw [commitNamed?_plain (RevisionName.ofText?_id hid)]
  refine ⟨id, ?_, by rw [hkind]; rfl, hpeel⟩
  unfold objectNamed?
  rw [hid, Option.filter_some, if_pos hcontains]

/-- The full id of a commit leads to this commit. -/
theorem commitNamed?_hex {info : CommitInfo} (hid : ObjectId.ofText? id.hex = some id)
    (h : repository.objects.commit id = .ok info) : repository.commitNamed? id.hex = some id :=
  commitNamed?_id hid h

end Repository

end CommitReports.Git
