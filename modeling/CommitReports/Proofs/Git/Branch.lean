import CommitReports.Proofs.Git.Standing
import CommitReports.Revision

/-!
# Branches by name

A name is looked up in two ways: `resolve` takes the first of all that it may stand
for, whereas `hasLocalBranch` and `checkout` take the local branch only. Both ways end
at the branch unless something else of that name comes first, or the branch leads
nowhere (`Repository.Shadowed`). For a name that is not shadowed and that is accepted
as that of a local branch, what is listed, what is checked out and what is moved
forward is one branch (`meansBranch_of_lookupLocal`). A tag is enough to part them
(`not_meansBranch_tagged`).
-/

namespace CommitReports.Git

/-! ## Names that stand for something else -/

namespace Repository

variable {repository : Repository} {name ref : String} {id : ObjectId}

/-- What keeps the name of a local branch from leading to that branch. -/
inductive Shadowed (repository : Repository) (name : String) : Prop where
  /-- The name is another one for `HEAD`. -/
  | head (h : name = "@")
  /-- An object has the name for its id. -/
  | object {id : ObjectId} (hid : ObjectId.ofText? name = some id)
      (hcontains : repository.objects.contains id = true)
  /-- A reference that is tried before the branches has the name, in full or in short. -/
  | reference {other : String} (hother : other ∈ [name, "refs/" ++ name, "refs/tags/" ++ name])
      (hvalid : RefName.isValid other = true) (htarget : (repository.target? other).isSome)
  /-- The branch leads nowhere. -/
  | dangling (h : repository.target? (RefName.heads ++ name) = none)

/-- What a name with an empty segment may stand for has an empty segment, too. -/
theorem empty_mem_of_candidates (hempty : [] ∈ Path.segments name.toList) :
    ∀ other ∈ RevisionName.candidates name, [] ∈ Path.segments other.toList := by
  have hfront : ∀ (front : List Char) (other : String), other.toList = front ++ '/' :: name.toList →
      [] ∈ Path.segments other.toList := by
    intro front other hother
    rw [hother, Path.segments_append]
    exact List.mem_append_right _ hempty
  intro other hmem
  simp only [RevisionName.candidates, List.mem_cons, List.not_mem_nil, or_false] at hmem
  rcases hmem with rfl | rfl | rfl | rfl | rfl | rfl
  · exact hempty
  · exact hfront "refs".toList _ (by rw [String.toList_append]; rfl)
  · exact hfront "refs/tags".toList _ (by rw [String.toList_append]; rfl)
  · exact hfront "refs/heads".toList _ (by rw [String.toList_append]; rfl)
  · exact hfront "refs/remotes".toList _ (by rw [String.toList_append]; rfl)
  · have hback : ("refs/remotes/" ++ name ++ "/HEAD").toList =
        "refs/remotes".toList ++ '/' :: (name.toList ++ '/' :: "HEAD".toList) := by
      rw [String.toList_append, String.toList_append, List.append_assoc]
      rfl
    rw [hback, Path.segments_append, Path.segments_append]
    exact List.mem_append_right _ (List.mem_append_left _ hempty)

/-- No valid reference, and no hash, is spelled with an empty segment. -/
theorem objectNamed?_of_empty_segment (hempty : [] ∈ Path.segments name.toList) (hne : name ≠ "") :
    repository.objectNamed? name = none := by
  have hslash : '/' ∈ name.toList := Path.slash_mem_of_empty_segment hempty (by simpa using hne)
  have hid : ObjectId.ofText? name = none := by
    cases hspelled : ObjectId.ofText? name with
    | none => rfl
    | some id => exact absurd (ObjectId.isHexDigit_of_ofText? hspelled _ hslash) (by decide)
  have hreference : repository.referenceNamed? name = none := by
    unfold referenceNamed?
    rw [List.findSome?_eq_none_iff]
    intro other hother
    refine if_neg fun hvalid => ?_
    exact RefName.empty_not_mem_of_isValid hvalid (empty_mem_of_candidates hempty other hother)
  have habbreviated : repository.abbreviated? name = none := by
    unfold abbreviated?
    rw [if_neg]
    rintro ⟨-, -, hdigits⟩
    rw [String.all_bool_eq, List.all_eq_true] at hdigits
    exact absurd (hdigits _ hslash) (by decide)
  unfold objectNamed?
  rw [hid, hreference, habbreviated]
  rfl

theorem branchRef?_eq_some_iff : repository.branchRef? name = some ref ↔
    RefName.ofBranch? name = some ref ∧ (repository.ref? ref).isSome := by
  unfold branchRef?
  rw [Option.bind_eq_some_iff]
  constructor
  · rintro ⟨spelled, hspelled, hfound⟩
    split at hfound
    next hsome =>
      cases hfound
      exact ⟨hspelled, hsome⟩
    next => cases hfound
  · rintro ⟨hspelled, hsome⟩
    exact ⟨ref, hspelled, if_pos hsome⟩

/-- What a local branch is found under is a name without steps. -/
theorem ofText?_of_branchRef? (hbranch : repository.branchRef? name = some ref) (hat : name ≠ "@") :
    RevisionName.ofText? name = some { base := name, steps := [] } := by
  obtain ⟨hspelled, -⟩ := branchRef?_eq_some_iff.mp hbranch
  refine RevisionName.ofText?_plain hat (RefName.ne_empty_of_ofBranch? hspelled) (fun c hc => ?_)
    (RefName.hasPair_of_ofBranch? hspelled)
  have hchar : c ≠ '/' → RefName.isNameChar c = true := fun hslash =>
    RefName.isNameChar_of_ofBranch? hspelled hslash hc
  refine ⟨?_, ?_, ?_⟩ <;> rintro rfl <;> exact absurd (hchar (by decide)) (by decide)

/-- A branch whose name leads to a commit has the name in full. -/
theorem branchRef?_of_commitNamed? (hbranch : repository.branchRef? name = some ref)
    (hat : name ≠ "@") (hnamed : repository.commitNamed? name = some id) :
    ref = RefName.heads ++ name ∧ RefName.isValid ref = true := by
  have hplain := ofText?_of_branchRef? hbranch hat
  obtain ⟨start, hstart, -, -⟩ := (commitNamed?_plain hplain).mp hnamed
  obtain ⟨hspelled, -⟩ := branchRef?_eq_some_iff.mp hbranch
  refine RefName.eq_of_ofBranch? (fun hempty => ?_) hspelled
  rw [objectNamed?_of_empty_segment hempty (RefName.ne_empty_of_ofBranch? hspelled)] at hstart
  cases hstart

/-- A name that is not shadowed leads to the branch. -/
theorem objectNamed?_of_not_shadowed (hvalid : RefName.isValid (RefName.heads ++ name) = true)
    (hclear : ¬repository.Shadowed name) :
    repository.objectNamed? name = repository.target? (RefName.heads ++ name) := by
  have hid : (ObjectId.ofText? name).filter repository.objects.contains = none := by
    rw [Option.filter_eq_none_iff]
    exact fun id hid hcontains => hclear (.object hid hcontains)
  have hother : ∀ other ∈ [name, "refs/" ++ name, "refs/tags/" ++ name],
      (if RefName.isValid other then repository.target? other else none) = none := by
    intro other hmem
    split
    · cases htarget : repository.target? other with
      | none => rfl
      | some id => exact absurd (.reference hmem ‹_› (by rw [htarget]; rfl)) hclear
    · rfl
  obtain ⟨target, htarget⟩ := Option.ne_none_iff_exists'.mp fun hnone => hclear (.dangling hnone)
  have hreference : repository.referenceNamed? name = some target := by
    unfold referenceNamed? RevisionName.candidates
    rw [List.findSome?_cons, hother _ (by simp), List.findSome?_cons, hother _ (by simp),
      List.findSome?_cons, hother _ (by simp), List.findSome?_cons]
    have hheads : "refs/heads/" ++ name = RefName.heads ++ name := rfl
    rw [hheads, if_pos hvalid, htarget]
  unfold objectNamed?
  rw [hid, hreference, htarget]

/-- A reference leads to the commit that its object is, or has behind it. -/
theorem peelRef_eq_ok {start : ObjectId} (htarget : repository.target? ref = some start)
    (hkind : (repository.objects.kind? start).isSome)
    (hpeel : repository.objects.peelTo .commit start = some id) :
    repository.peelRef ref .commit = .ok id := by
  unfold peelRef
  simp only [htarget, hpeel]
  rw [if_neg (by simpa [Option.isSome_iff_ne_none] using hkind)]

/-- The local branch of a name is among those that are moved forward. -/
theorem mem_branchRefs (href : (repository.ref? (RefName.heads ++ name)).isSome) :
    RefName.heads ++ name ∈ repository.branchRefs := by
  refine mem_branchRefs_iff.mpr ⟨?_, href⟩
  rw [RefName.isBranch, String.startsWith_string_iff, String.toList_append]
  exact List.prefix_append _ _

end Repository

/-! ## What is done with a branch -/

namespace Workspace

variable {site : Site Workspace} {name : String}

/-- What is put in the place of the repository is found there. -/
theorem here_setRepository (workspace : Workspace) (repository : Repository) :
    (workspace.setRepository workspace.root repository).here = repository := by
  simp [here, repository?, setRepository]

@[simp] theorem perform_setPresent (repository : Repository) (site : Site Workspace) :
    (setPresent repository).perform site = (.ok (), { site with
      resource := site.resource.setRepository site.resource.root repository }) := rfl

/-- A name is that of a local branch if the history says so. -/
theorem hasLocalBranch_eq_true_iff : ((hasLocalBranch name).perform site).1 = .ok true ↔
    ∃ ref, site.resource.here.branchRef? name = some ref := by
  simp only [Repository.branchRef?_eq_some_iff]
  cases hspelled : RefName.ofBranch? name with
  | none =>
    simp only [hasLocalBranch, hspelled, reduceCtorEq, false_and, exists_false, iff_false]
    split <;> exact nofun
  | some ref =>
    have hnul : name.contains '\x00' = false := by
      rw [String.contains_char_eq, decide_eq_false_iff_not]
      exact fun hmem =>
        absurd (RefName.isNameChar_of_ofBranch? hspelled (by decide) hmem) (by decide)
    rw [hasLocalBranch, hnul, hspelled]
    simp only [Bool.false_eq_true, if_false, Action.perform_bind, perform_present,
      Action.perform_pure, Except.ok.injEq, Option.some.injEq]
    simp

/-- A name is accepted if it leads to a commit and there is a local branch of that name. -/
theorem lookupLocal_eq_ok_iff {branch : Branch} :
    ((Branch.lookupLocal name : Action Workspace Branch).perform site).1 = .ok branch ↔
      branch = ⟨⟨name⟩⟩ ∧ (∃ id, site.resource.here.commitNamed? name = some id) ∧
        ∃ ref, site.resource.here.branchRef? name = some ref := by
  simp only [Branch.lookupLocal, Branch.lookup, Revision.lookup, Revision.verify, History.resolve,
    resolve, Action.debug, Action.perform_bind, Action.perform_say, perform_commitNamed]
  cases hnamed : site.resource.here.commitNamed? name with
  | none => simp
  | some id =>
    simp only [Action.perform_pure, Option.some.injEq, exists_eq', true_and]
    -- What has been said since does not change the repository.
    generalize hsaid : ({ site with notes := _ } : Site Workspace) = said
    have hhere : said.resource.here = site.resource.here := by rw [← hsaid]
    rw [← hhere, ← hasLocalBranch_eq_true_iff, History.hasLocalBranch]
    rcases (hasLocalBranch name).perform said with ⟨⟨e⟩ | ⟨⟩ | ⟨⟩, after⟩ <;> simp [eq_comm]

/-- What is checked out is the local branch of the name. -/
theorem head_of_checkout {after : Site Workspace} {ref : String}
    (hbranch : site.resource.here.branchRef? name = some ref)
    (h : (checkout name).perform site = (.ok (), after)) :
    after.resource.here.head = .reference ref := by
  rw [checkout, Action.debug, Action.perform_bind, Action.perform_say] at h
  simp only at h
  rw [Action.perform_bind, perform_present] at h
  simp only [hbranch] at h
  obtain ⟨commit, peeled, -, h⟩ := Action.perform_bind_eq_ok.mp h
  obtain ⟨-, shown, -, h⟩ := Action.perform_bind_eq_ok.mp h
  rw [Action.perform_bind, perform_present] at h
  cases h
  rw [here_setRepository]

/-- What is moved forward is the reference of a branch. -/
theorem ref?_of_fastForwardBranch {after : Site Workspace} {head : Option String} {ref : String}
    {own other : ObjectId} (hpair : site.resource.here.pair? ref = some (own, other))
    (hbehind : site.resource.here.standing own other = .ok .behind)
    (h : (fastForwardBranch head ref).perform site = (.ok (), after)) :
    after.resource.here.ref? ref = some (.object other) := by
  rw [fastForwardBranch, Action.perform_bind, perform_present] at h
  simp only [hpair, hbehind] at h
  obtain ⟨-, said, -, h⟩ := Action.perform_bind_eq_ok.mp h
  -- Whether or not the working tree is brought along, the reference is set in the end.
  have hset : ∃ between, (present >>= fun repository =>
      setPresent (repository.setRef ref (.object other))).perform between = (.ok (), after) := by
    split at h
    · obtain ⟨-, shown, -, h⟩ := Action.perform_bind_eq_ok.mp h
      exact ⟨shown, h⟩
    · exact ⟨said, h⟩
  obtain ⟨between, hset⟩ := hset
  rw [Action.perform_bind, perform_present] at hset
  cases hset
  rw [here_setRepository, Repository.ref?_setRef_self]

/-- That a name stands for a local branch, with a commit at its tip, in all that is done with it. -/
structure MeansBranch (site : Site Workspace) (name : String) (tip : ObjectId) : Prop where
  /-- The reference of the branch leads to the tip. -/
  peelRef : site.resource.here.peelRef (RefName.heads ++ name) .commit = .ok tip
  resolve : ((History.resolve name : Action Workspace String).perform site).1 = .ok tip.hex
  /-- Listings up to the name end at the tip. -/
  commitsBetween : ∀ since hidden,
    ((History.resolve since : Action Workspace String).perform site).1 = .ok hidden.hex →
    ((History.commitsBetween since name : Action Workspace (List String)).perform site).1 =
      match site.resource.here.commitsBetween hidden tip with
      | .ok ids => .ok (ids.map (·.hex))
      | .error fault => .error (.unavailable fault.message)
  checkout : ∀ after, (History.checkout name : Action Workspace Unit).perform site = (.ok (), after) →
    after.resource.here.head = .reference (RefName.heads ++ name)
  /-- The branch is among those that are moved forward. -/
  mem_branchRefs : RefName.heads ++ name ∈ site.resource.here.branchRefs
  fastForward : ∀ head own other after,
    site.resource.here.pair? (RefName.heads ++ name) = some (own, other) →
    site.resource.here.standing own other = .ok .behind →
    (fastForwardBranch head (RefName.heads ++ name)).perform site = (.ok (), after) →
    after.resource.here.ref? (RefName.heads ++ name) = some (.object other)

/-- **A name that is accepted as that of a local branch means that branch**, unless something
shadows it. -/
theorem meansBranch_of_lookupLocal {branch : Branch}
    (haccepted : ((Branch.lookupLocal name : Action Workspace Branch).perform site).1 = .ok branch)
    (hclear : ¬site.resource.here.Shadowed name) : ∃ tip, MeansBranch site name tip := by
  obtain ⟨-, ⟨tip, hnamed⟩, ref, hbranch⟩ := lookupLocal_eq_ok_iff.mp haccepted
  have hat : name ≠ "@" := fun hat => hclear (.head hat)
  obtain ⟨rfl, hvalid⟩ := Repository.branchRef?_of_commitNamed? hbranch hat hnamed
  obtain ⟨start, hstart, hkind, hpeel⟩ :=
    (Repository.commitNamed?_plain (Repository.ofText?_of_branchRef? hbranch hat)).mp hnamed
  rw [Repository.objectNamed?_of_not_shadowed hvalid hclear] at hstart
  refine ⟨tip, Repository.peelRef_eq_ok hstart hkind hpeel, resolve_eq_ok_iff.mpr hnamed, fun since hidden hsince => ?_,
    fun after => head_of_checkout hbranch,
    Repository.mem_branchRefs (Repository.branchRef?_eq_some_iff.mp hbranch).2,
    fun head own other after => ref?_of_fastForwardBranch⟩
  rw [resolve_eq_ok_iff] at hsince
  simp only [History.commitsBetween, Workspace.commitsBetween, Action.debug, Action.perform_bind,
    Action.perform_say, perform_commitNamed, hsince, hnamed, perform_present]
  cases site.resource.here.commitsBetween hidden tip <;> rfl

/-- A branch beside which no other reference stands. -/
theorem meansBranch_single :
    let site := single { objects := .merged, refs := [("refs/heads/main", .object (.uniform 'd'))] }
    ((Branch.lookupLocal "main" : Action Workspace Branch).perform site).1 = .ok ⟨⟨"main"⟩⟩ ∧
      ¬site.resource.here.Shadowed "main" ∧ ∃ tip, MeansBranch site "main" tip := by
  intro site
  obtain ⟨hkind, hpeel⟩ := ObjectStore.peelTo_commit ObjectStore.commit_merged.1
  have hplain : RevisionName.ofText? "main" = some { base := "main", steps := [] } := by
    decide +kernel
  have hobject : site.resource.here.objectNamed? "main" = some (.uniform 'd') := by decide +kernel
  have hnamed : site.resource.here.commitNamed? "main" = some (.uniform 'd') :=
    (Repository.commitNamed?_plain hplain).mpr ⟨_, hobject, congrArg Option.isSome hkind, hpeel⟩
  have hbranch : site.resource.here.branchRef? "main" = some "refs/heads/main" := by decide +kernel
  have haccepted := lookupLocal_eq_ok_iff.mpr ⟨rfl, ⟨_, hnamed⟩, _, hbranch⟩
  have hclear : ¬site.resource.here.Shadowed "main" := by
    rintro (hat | ⟨hid, -⟩ | ⟨hother, hvalid, htarget⟩ | hdangling)
    · exact absurd hat (by decide)
    · cases hid
    · have hnone : ∀ other ∈ ["main", "refs/main", "refs/tags/main"],
          site.resource.here.target? other = none := by decide +kernel
      rw [hnone _ hother] at htarget
      cases htarget
    · exact absurd hdangling (by decide +kernel)
  exact ⟨haccepted, hclear, meansBranch_of_lookupLocal haccepted hclear⟩

/-- A tag of the same name parts what is resolved from the branch. -/
theorem not_meansBranch_tagged :
    let site := single { objects := .merged, refs := [("refs/heads/main", .object (.uniform 'd')),
      ("refs/tags/main", .object (.uniform 'b'))] }
    ((Branch.lookupLocal "main" : Action Workspace Branch).perform site).1 = .ok ⟨⟨"main"⟩⟩ ∧
      site.resource.here.peelRef "refs/heads/main" .commit = .ok (.uniform 'd') ∧
      ((History.resolve "main" : Action Workspace String).perform site).1 =
        .ok (ObjectId.uniform 'b').hex ∧
      ¬∃ tip, MeansBranch site "main" tip := by
  intro site
  obtain ⟨hkind, hpeel⟩ := ObjectStore.peelTo_commit ObjectStore.commit_merged.2.2.1
  obtain ⟨hkind', hpeel'⟩ := ObjectStore.peelTo_commit ObjectStore.commit_merged.1
  have hplain : RevisionName.ofText? "main" = some { base := "main", steps := [] } := by
    decide +kernel
  have hobject : site.resource.here.objectNamed? "main" = some (.uniform 'b') := by decide +kernel
  have hnamed : site.resource.here.commitNamed? "main" = some (.uniform 'b') :=
    (Repository.commitNamed?_plain hplain).mpr ⟨_, hobject, congrArg Option.isSome hkind, hpeel⟩
  have hbranch : site.resource.here.branchRef? "main" = some "refs/heads/main" := by decide +kernel
  have htarget : site.resource.here.target? "refs/heads/main" = some (.uniform 'd') := by
    decide +kernel
  have hpeeled := Repository.peelRef_eq_ok htarget (congrArg Option.isSome hkind') hpeel'
  have hresolve := resolve_eq_ok_iff.mpr hnamed
  refine ⟨lookupLocal_eq_ok_iff.mpr ⟨rfl, ⟨_, hnamed⟩, _, hbranch⟩, hpeeled, hresolve, ?_⟩
  rintro ⟨tip, hmeans⟩
  have htip : tip = .uniform 'd' := Except.ok.inj (hmeans.peelRef.symm.trans hpeeled)
  have hhex : (ObjectId.uniform 'b').hex = (ObjectId.uniform 'd').hex :=
    htip ▸ Except.ok.inj (hresolve.symm.trans hmeans.resolve)
  exact absurd hhex (by decide)

end Workspace

end CommitReports.Git
