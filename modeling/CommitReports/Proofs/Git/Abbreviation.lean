import CommitReports.Proofs.Git.RevisionName
import CommitReports.Proofs.Git.Walk

/-!
# Hashes and the first digits of hashes

A name in digits is read as a hash, or as the first digits of one, unless a reference has
this name; `Repository.Misread` is what can keep it from that. A name that is not misread
leads to a commit whose hash begins with it (`startsWith_of_commitNamed?`), and it leads
there as long as the objects are the same and no reference of this name is made
(`commitNamed?_congr`, `not_misread_of_moved`).
-/

namespace CommitReports.Git

/-- An object that is no tag and leads to a commit is that commit. -/
theorem ObjectStore.eq_of_peelTo_commit {store : ObjectStore} {start id : ObjectId}
    (htag : store.kind? start ≠ some .tag) (hpeel : store.peelTo .commit start = some id) :
    id = start := by
  unfold peelTo peel at hpeel
  split at hpeel
  next => cases hpeel
  next kind hkind =>
    split at hpeel
    next => exact (Option.some.inj hpeel).symm
    next hne =>
      cases kind with
      | tag => exact absurd hkind htag
      | commit => exact absurd rfl hne
      | blob => cases hpeel
      | tree => cases hpeel

/-- What is of the kind of a tag is stored as one. -/
theorem ObjectStore.tag_of_kind? {store : ObjectStore} {id : ObjectId}
    (h : store.kind? id = some .tag) : ∃ text, (id, Object.tag text) ∈ store.objects := by
  unfold kind? at h
  split at h
  next => cases h
  next => cases h
  next => cases h
  next => simp at h
  next text hfound =>
    obtain ⟨before, after, hobjects, -⟩ := List.lookup_eq_some_iff.mp hfound
    exact ⟨text, by rw [hobjects]; simp⟩

namespace Repository

variable {repository before after : Repository} {text : String} {id : ObjectId}

/-- What can keep a text from being read as a hash, or as the first digits of the hash of a commit.
-/
inductive Misread (repository : Repository) (text : String) : Prop where
  /-- It is not written in digits. -/
  | sign {c : Char} (hc : c ∈ text.toList) (hdigit : Text.isHexDigit c = false)
  /-- There is a reference of this name, in full or in short, and no object. -/
  | reference {other : String} (hother : other ∈ RevisionName.candidates text)
      (href : (repository.ref? other).isSome = true)
      (hobject : (ObjectId.ofText? text).filter repository.objects.contains = none)
  /-- They are the first digits of a tag, which leads on. -/
  | tag {id : ObjectId} (hkind : repository.objects.kind? id = some .tag)
      (hdigits : text.toLower.toList <+: id.hex.toList)

/-- What no reference has the name of is not the name of one in short either. -/
theorem referenceNamed?_of_unnamed
    (h : ∀ other ∈ RevisionName.candidates text, repository.ref? other = none) :
    repository.referenceNamed? text = none := by
  unfold referenceNamed?
  rw [List.findSome?_eq_none_iff]
  intro other hother
  have htarget : repository.target? other = none := by
    unfold target? follow?
    rw [h other hother]
    rfl
  rw [htarget, ite_self]

/-- Where no object has the name, a text that is not misread is that of no reference either. -/
theorem referenceNamed?_of_not_misread (hclear : ¬repository.Misread text)
    (hobject : (ObjectId.ofText? text).filter repository.objects.contains = none) :
    repository.referenceNamed? text = none := by
  refine referenceNamed?_of_unnamed fun other hother => ?_
  by_contra hsome
  exact hclear (.reference hother (Option.isSome_iff_ne_none.mpr hsome) hobject)

/-- The object that a text stands for has an id that begins with it. -/
theorem startsWith_of_objectNamed? {start : ObjectId} (hclear : ¬repository.Misread text)
    (h : repository.objectNamed? text = some start) : text.toLower.toList <+: start.hex.toList := by
  unfold objectNamed? at h
  split at h
  next found hfound =>
    cases h
    obtain ⟨hid, -⟩ := Option.filter_eq_some_iff.mp hfound
    unfold ObjectId.ofText? at hid
    split at hid
    · cases hid
      exact List.prefix_rfl
    · cases hid
  next hobject =>
    split at h
    next found hfound =>
      rw [referenceNamed?_of_not_misread hclear hobject] at hfound
      cases hfound
    next =>
      unfold abbreviated? at h
      split at h
      · split at h
        next found hfound =>
          cases h
          have hmem : start ∈ repository.objects.ids.filter fun id =>
              text.toLower.toList.isPrefixOf id.hex.toList := by rw [hfound]; exact List.mem_singleton_self _
          exact List.isPrefixOf_iff_prefix.mp (List.mem_filter.mp hmem).2
        next => cases h
      · cases h

/-- A text that is not misread is a name as it stands. -/
theorem ofText?_of_not_misread (hclear : ¬repository.Misread text)
    (h : repository.commitNamed? text = some id) :
    RevisionName.ofText? text = some { base := text, steps := [] } := by
  refine RevisionName.ofText?_digits (fun c hc => ?_) ?_
  · by_contra hdigit
    exact hclear (.sign hc (by simpa using hdigit))
  · rintro rfl
    cases h

/-- **The commit that digits lead to has a hash that begins with them**, if they are not misread. -/
theorem startsWith_of_commitNamed? (hclear : ¬repository.Misread text)
    (h : repository.commitNamed? text = some id) : text.toLower.toList <+: id.hex.toList := by
  obtain ⟨start, hstart, -, hpeel⟩ :=
    (commitNamed?_plain (ofText?_of_not_misread hclear h)).mp h
  have hdigits := startsWith_of_objectNamed? hclear hstart
  obtain rfl := ObjectStore.eq_of_peelTo_commit (fun htag => hclear (.tag htag hdigits)) hpeel
  exact hdigits

/-- What a text that is not misread stands for is a matter of the objects. -/
theorem commitNamed?_congr (hobjects : after.objects = before.objects)
    (hbefore : ¬before.Misread text) (hafter : ¬after.Misread text)
    (h : before.commitNamed? text = some id) : after.commitNamed? text = some id := by
  have hplain := ofText?_of_not_misread hbefore h
  have hsame : after.objectNamed? text = before.objectNamed? text := by
    unfold objectNamed? abbreviated?
    rw [hobjects]
    cases hobject : (ObjectId.ofText? text).filter before.objects.contains with
    | some found => rfl
    | none =>
      rw [referenceNamed?_of_not_misread hbefore hobject,
        referenceNamed?_of_not_misread hafter (hobjects ▸ hobject)]
  rw [commitNamed?_plain hplain] at h ⊢
  rwa [hsame, hobjects]

/-- References that are only moved do not come before a hash. -/
theorem not_misread_of_moved (hobjects : after.objects = before.objects)
    (hrefs : ∀ name, (after.ref? name).isSome = (before.ref? name).isSome)
    (hclear : ¬before.Misread text) : ¬after.Misread text := by
  rintro (⟨hc, hdigit⟩ | ⟨hother, href, hobject⟩ | ⟨hkind, hdigits⟩)
  · exact hclear (.sign hc hdigit)
  · exact hclear (.reference hother (hrefs _ ▸ href) (hobjects ▸ hobject))
  · exact hclear (.tag (hobjects ▸ hkind) hdigits)

/-! ## The first digits of a merge -/

/-- A branch at one side of a merge. -/
def besideMerge : Repository :=
  { objects := .merged, refs := [("refs/heads/main", .object (.uniform 'b'))] }

theorem objectNamed?_besideMerge : besideMerge.objectNamed? "main" = some (.uniform 'b') ∧
    besideMerge.objectNamed? "dddd" = some (.uniform 'd') := by
  refine ⟨by decide +kernel, ?_⟩
  have hid : ObjectId.ofText? "dddd" = none := by decide +kernel
  have hreference : besideMerge.referenceNamed? "dddd" = none := by decide +kernel
  have hall : "dddd".all Text.isHexDigit = true := by cbv
  have honly : (besideMerge.objects.ids.filter fun id =>
      "dddd".toLower.toList.isPrefixOf id.hex.toList) = [.uniform 'd'] := by decide +kernel
  unfold objectNamed? abbreviated?
  rw [hid, Option.filter_none, hreference, if_pos ⟨by decide, by decide, hall⟩, honly]

theorem commitNamed?_besideMerge : besideMerge.commitNamed? "main" = some (.uniform 'b') ∧
    besideMerge.commitNamed? "dddd" = some (.uniform 'd') := by
  obtain ⟨hd, -, hb, -⟩ := ObjectStore.commit_merged
  obtain ⟨hkindB, hpeelB⟩ := ObjectStore.peelTo_commit hb
  obtain ⟨hkindD, hpeelD⟩ := ObjectStore.peelTo_commit hd
  exact ⟨(commitNamed?_plain (by decide +kernel)).mpr
      ⟨_, objectNamed?_besideMerge.1, congrArg Option.isSome hkindB, hpeelB⟩,
    (commitNamed?_plain (by decide +kernel)).mpr
      ⟨_, objectNamed?_besideMerge.2, congrArg Option.isSome hkindD, hpeelD⟩⟩

theorem not_misread_besideMerge : ¬besideMerge.Misread "dddd" := by
  rintro (⟨hc, hdigit⟩ | ⟨hother, href, -⟩ | ⟨hkind, -⟩)
  · have hall : "dddd".toList.all Text.isHexDigit = true := by decide +kernel
    rw [List.all_eq_true.mp hall _ hc] at hdigit
    cases hdigit
  · have hnone : ∀ other ∈ RevisionName.candidates "dddd", besideMerge.ref? other = none := by
      decide +kernel
    rw [hnone _ hother] at href
    cases href
  · obtain ⟨text, htag⟩ := ObjectStore.tag_of_kind? hkind
    have hcommits : ∀ entry ∈ ObjectStore.merged.objects, entry.2.kind = .commit := by
      simp [ObjectStore.merged, Object.kind]
    exact nomatch hcommits _ htag

end Repository

end CommitReports.Git
