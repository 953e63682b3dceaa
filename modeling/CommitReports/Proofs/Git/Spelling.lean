import CommitReports.Proofs.Git.Abbreviation

/-!
# Spellings of a commit

One commit has many names: its full hash, the first digits of it, the hash of a tag on it,
a branch. While a run lasts, nothing of a repository changes but its index and, if branches
are checked out, `HEAD` (`Repository.UpToHead`). A name that *stands* for a commit leads to
it all that time (`Repository.Stands`).

Where `HEAD` stays, every name does so that leads to a commit at all (`stands_of_fixed`).
Where it is moved, hashes do, of commits or of tags, in full or in their first digits
(`IsHash.stands`): `HEAD` has no part in how they are read.
-/

namespace CommitReports.Git.Repository

variable {repository start now : Repository} {movable : Bool} {text : String} {id : ObjectId}

/-- The second repository differs from the first one in its index at most and, if that may be moved,
in `HEAD`. -/
structure UpToHead (movable : Bool) (start now : Repository) : Prop where
  objects : now.objects = start.objects
  ref? : ∀ name, (movable = true → name ≠ "HEAD") → now.ref? name = start.ref? name

theorem UpToHead.refl (movable : Bool) (repository : Repository) :
    UpToHead movable repository repository :=
  ⟨rfl, fun _ _ => rfl⟩

/-- The text names the commit, wherever `HEAD` is moved if it may be. -/
def Stands (repository : Repository) (movable : Bool) (text : String) (id : ObjectId) : Prop :=
  ∀ now, UpToHead movable repository now → now.commitNamed? text = some id

theorem Stands.commitNamed? (h : repository.Stands movable text id) :
    repository.commitNamed? text = some id :=
  h repository (.refl movable repository)

/-! ## Where `HEAD` stays -/

theorem follow?_congr (href : ∀ name, now.ref? name = start.ref? name) (levels : Nat) :
    ∀ name, now.follow? levels name = start.follow? levels name := by
  induction levels with
  | zero =>
    intro name
    rw [follow?, follow?, href]
  | succ levels ih =>
    intro name
    rw [follow?, follow?, href]
    simp only [ih]

/-- What a name stands for is a matter of the objects and of the references. -/
theorem objectNamed?_congr (hobjects : now.objects = start.objects)
    (hreference : now.referenceNamed? text = start.referenceNamed? text) :
    now.objectNamed? text = start.objectNamed? text := by
  unfold objectNamed? abbreviated?
  rw [hobjects, hreference]

/-- The steps behind a name are a matter of the objects. -/
theorem commitNamed?_of_objectNamed? (hobjects : now.objects = start.objects)
    (hobject : ∀ base, now.objectNamed? base = start.objectNamed? base) (text : String) :
    now.commitNamed? text = start.commitNamed? text := by
  have hancestor : ∀ n id, now.ancestorOf? n id = start.ancestorOf? n id := by
    intro n
    induction n with
    | zero => exact fun _ => rfl
    | succ n ih =>
      intro id
      rw [ancestorOf?, ancestorOf?, hobjects]
      simp only [ih]
  have hstep : now.takeStep? = start.takeStep? := by
    funext id step
    unfold takeStep?
    rw [hobjects]
    simp only [hancestor]
  unfold commitNamed?
  simp only [hobjects, hobject, hstep]

/-- **Every name of a commit stands for it** as long as `HEAD` stays where it is. -/
theorem stands_of_fixed (h : repository.commitNamed? text = some id) :
    repository.Stands false text id := by
  intro now hnow
  have href : ∀ name, now.ref? name = repository.ref? name := fun name => hnow.ref? name nofun
  have htarget : ∀ name, now.target? name = repository.target? name := by
    intro name
    rw [target?, target?, follow?_congr href]
  have hreference : ∀ base, now.referenceNamed? base = repository.referenceNamed? base := by
    intro base
    unfold referenceNamed?
    simp only [htarget]
  rw [commitNamed?_of_objectNamed? hnow.objects fun base =>
    objectNamed?_congr hnow.objects (hreference base)]
  exact h

/-! ## Hashes -/

/-- The text is read as a hash: it is the full hash of an object, or it is written in digits and no
reference has this name. -/
inductive IsHash (repository : Repository) (text : String) : Prop where
  | full {start : ObjectId} (hid : ObjectId.ofText? text = some start)
      (hobject : repository.objects.contains start = true)
  | digits (hdigits : ∀ c ∈ text.toList, Text.isHexDigit c = true)
      (hunnamed : ∀ other ∈ RevisionName.candidates text, repository.ref? other = none)

/-- Digits are not the name of `HEAD`, nor short for it. -/
theorem ne_head_of_candidates (hdigits : ∀ c ∈ text.toList, Text.isHexDigit c = true)
    {other : String} (hother : other ∈ RevisionName.candidates text) : other ≠ "HEAD" := by
  have hshort : ∀ front rest : String, front.toList.head? = some 'r' → front ++ rest ≠ "HEAD" := by
    intro front rest hfront heq
    have hfirst := congrArg (fun name : String => name.toList.head?) heq
    rw [String.toList_append, List.head?_append, hfront] at hfirst
    exact absurd (Option.some.inj hfirst) (by decide)
  simp only [RevisionName.candidates, List.mem_cons, List.not_mem_nil, or_false] at hother
  rcases hother with rfl | rfl | rfl | rfl | rfl | rfl
  · rintro rfl
    exact absurd (hdigits 'H' (by decide)) (by decide)
  · exact hshort _ _ (by decide)
  · exact hshort _ _ (by decide)
  · exact hshort _ _ (by decide)
  · exact hshort _ _ (by decide)
  · rw [String.append_assoc]
    exact hshort _ _ (by decide)

/-- **A hash stands for its commit wherever `HEAD` is moved**, in full or in its first digits; so does
the hash of a tag on the commit. -/
theorem IsHash.stands (h : repository.IsHash text) (hnamed : repository.commitNamed? text = some id)
    (movable : Bool) : repository.Stands movable text id := by
  intro now hnow
  have hdigits : ∀ c ∈ text.toList, Text.isHexDigit c = true := by
    cases h with
    | full hid _ => exact ObjectId.isHexDigit_of_ofText? hid
    | digits hdigits _ => exact hdigits
  have hplain : RevisionName.ofText? text = some { base := text, steps := [] } := by
    refine RevisionName.ofText?_digits hdigits ?_
    rintro rfl
    cases hnamed
  have hobject : now.objectNamed? text = repository.objectNamed? text := by
    cases h with
    | full hid hobject =>
      unfold objectNamed?
      rw [hid, Option.filter_some, hnow.objects, if_pos hobject, Option.filter_some, if_pos hobject]
    | digits _ hunnamed =>
      have hnow' : ∀ other ∈ RevisionName.candidates text, now.ref? other = none := by
        intro other hother
        rw [hnow.ref? other fun _ => ne_head_of_candidates hdigits hother]
        exact hunnamed other hother
      refine objectNamed?_congr hnow.objects ?_
      rw [referenceNamed?_of_unnamed hunnamed, referenceNamed?_of_unnamed hnow']
  rw [commitNamed?_plain hplain] at hnamed ⊢
  rwa [hobject, hnow.objects]

end CommitReports.Git.Repository
