import CommitReports.Proofs.Git.FastForward

/-!
# Local commits are kept

Moving branches forward drops no commits, also when it fails on the way
(`fastForward_keepsCommits`). A branch stays where it is or moves to a commit that has the
old one in its history, and it moves only if it is behind when its turn comes. By then the
branches of earlier names have taken their turns, so what it is compared with is what
these have been moved to (`Repository.found?`). It can so be taken along from a place that
was not behind at first (`moved_of_level`).

Where the working tree refuses to follow, the branch that it shows is not moved.
-/

namespace CommitReports.Git

namespace Repository

variable {repository : Repository} {name : String}

/-- What a branch finds at its turn in the place of what it follows. -/
def found? (before after : Repository) (branch upstream : String) : Option RefTarget :=
  if upstream < branch then after.ref? upstream else before.ref? upstream

/-! ## What the working tree shows -/

/-- Following references ends at one that stands for an object. -/
theorem ref?_of_follow? {levels : Nat} {last : String} {id : ObjectId}
    (h : repository.follow? levels name = some (last, id)) :
    repository.ref? last = some (.object id) := by
  induction levels generalizing name with
  | zero =>
    unfold follow? at h
    split at h
    · cases h
    · cases h
      assumption
    · cases h
  | succ levels ih =>
    unfold follow? at h
    split at h
    · cases h
    · cases h
      assumption
    · exact ih h

theorem target?_of_ref? {id : ObjectId} (h : repository.ref? name = some (.object id)) :
    repository.target? name = some id := by
  unfold target? follow?
  rw [h]
  rfl

theorem showFiles_eq_error_iff {worktree : Worktree} {after : Snapshot} {reason : String} :
    repository.showFiles worktree after = .error reason ↔
      repository.baseline = .error reason ∨ ∃ before conflicts, repository.baseline = .ok before ∧
        worktree.change repository.objects before after = .error conflicts ∧
        conflictText conflicts = reason := by
  unfold showFiles
  cases repository.baseline with
  | error fault => simp
  | ok before =>
    cases hchange : worktree.change repository.objects before after with
    | error conflicts => simp [hchange]
    | ok worktree => simp [hchange]

end Repository

namespace Workspace

variable {head : Option String} {branch upstream : String} {branches : List String}
  {site after : Site Workspace} {result : Except Failure Unit} {own other : ObjectId}

/-- Moving branches forward leaves `HEAD` at the branch where it is. -/
theorem MovesOnly.follow?_eq (h : MovesOnly branches site after) (levels : Nat) (name : String) :
    (after.resource.here.follow? levels name).map (·.1) =
      (site.resource.here.follow? levels name).map (·.1) := by
  induction levels generalizing name with
  | zero =>
    unfold Repository.follow?
    rcases h.ref name with hsame | ⟨-, old, new, hold, hnew, -⟩
    · rw [hsame]
    · rw [hold, hnew]
      rfl
  | succ levels ih =>
    unfold Repository.follow?
    rcases h.ref name with hsame | ⟨-, old, new, hold, hnew, -⟩
    · rw [hsame]
      rcases site.resource.here.ref? name with - | - | next
      · rfl
      · rfl
      · exact ih next
    · rw [hold, hnew]
      rfl

theorem MovesOnly.headRef?_eq (h : MovesOnly branches site after) :
    after.resource.here.headRef? = site.resource.here.headRef? :=
  h.follow?_eq _ _

/-- What the working tree is taken to show is a matter of the index and the branch of `HEAD`. -/
theorem MovesOnly.baseline_eq (h : MovesOnly branches site after)
    (hhead : ∀ name, site.resource.here.headRef? = some name → name ∉ branches)
    (hindex : after.resource.here.index = site.resource.here.index) :
    after.resource.here.baseline = site.resource.here.baseline := by
  have hsnapshot : after.resource.here.headSnapshot = site.resource.here.headSnapshot := by
    unfold Repository.headSnapshot
    rw [h.headRef?_eq]
    cases hname : site.resource.here.headRef? with
    | none => rfl
    | some name =>
      obtain ⟨⟨last, id⟩, hfollow, hlast⟩ := Option.map_eq_some_iff.mp hname
      obtain rfl : last = name := hlast
      have href := Repository.ref?_of_follow? hfollow
      have hsame := h.ref?_eq (hhead _ hname)
      have htarget : after.resource.here.target? last = site.resource.here.target? last := by
        rw [Repository.target?_of_ref? href, Repository.target?_of_ref? (hsame.trans href)]
      simp only [Repository.peelRef, htarget, h.objects]
  unfold Repository.baseline
  rw [hindex, hsnapshot]

/-- The working tree refuses a commit whether or not branches that it does not show were moved. -/
theorem Refuses.of_movesOnly {commit : ObjectId} {reason : String} (hrefuses : Refuses site commit reason)
    (h : MovesOnly branches site after)
    (hhead : ∀ name, site.resource.here.headRef? = some name → name ∉ branches)
    (hindex : after.resource.here.index = site.resource.here.index)
    (hfiles : after.files = site.files) : Refuses after commit reason := by
  have hsnapshot : after.resource.here.snapshot? commit = site.resource.here.snapshot? commit := by
    unfold Repository.snapshot?
    rw [h.objects]
  unfold Refuses at hrefuses ⊢
  rw [Repository.showFiles_eq_error_iff] at hrefuses ⊢
  rw [h.baseline_eq hhead hindex, h.objects, hsnapshot, hfiles, h.root]
  exact hrefuses

/-! ## Which branches are moved -/

/-- The first branch to take its turn finds everything where it is. -/
theorem MovesOnly.found?_eq_ref? (h : MovesOnly branches site after)
    (hle : ∀ name ∈ branches, branch ≤ name) :
    site.resource.here.found? after.resource.here branch upstream =
      site.resource.here.ref? upstream := by
  unfold Repository.found?
  split
  next hlt => exact h.ref?_eq fun hmem => (hle upstream hmem).not_gt hlt
  next => rfl

/-- A turn of another branch does not change what a later one finds. -/
theorem MovesOnly.found?_eq {first : String} {before next after : Site Workspace}
    (h : MovesOnly [first] before next) (hle : first ≤ branch) (hne : branch ≠ first) :
    next.resource.here.found? after.resource.here branch upstream =
      before.resource.here.found? after.resource.here branch upstream := by
  unfold Repository.found?
  split
  · rfl
  next hnot =>
    refine h.ref?_eq fun hmem => ?_
    obtain rfl := List.mem_singleton.mp hmem
    exact hne (le_antisymm (not_lt.mp hnot) hle)

/-- A branch that is first in line and not behind is not moved. -/
theorem Pass.ref?_eq_of_not_behind (h : Pass head branches site result after)
    (hlocal : ∀ name ∈ branches, RefName.isBranch name = true)
    (hsorted : branches.Pairwise fun earlier later => earlier ≤ later)
    (hle : ∀ name ∈ branches, branch ≤ name)
    (hlevel : ∀ upstream, ¬site.resource.here.Behind branch upstream) :
    after.resource.here.ref? branch = site.resource.here.ref? branch := by
  induction h with
  | done => rfl
  | stops hturn => rw [hturn.of_error.1]
  | @goesOn first rest site next after result hturn hrest ih =>
    obtain ⟨hfirst, hrestLocal⟩ := List.forall_mem_cons.mp hlocal
    obtain ⟨hfirstLe, hrestSorted⟩ := List.pairwise_cons.mp hsorted
    obtain ⟨hbranchLe, hrestLe⟩ := List.forall_mem_cons.mp hle
    by_cases hbranch : branch = first
    · subst hbranch
      cases hturn with
      | stays _ hresource =>
        rw [← hresource] at hlevel ⊢
        exact ih hrestLocal hrestSorted hrestLe hlevel
      | moves hpair hbehind =>
        obtain ⟨upstream, hbehind⟩ := Repository.behind_of_pair hfirst hpair hbehind
        exact absurd hbehind (hlevel upstream)
    · -- All that take their turns have later names.
      refine ((hturn.movesOnly hfirst).trans (hrest.movesOnly hrestLocal)).ref?_eq fun hmem => ?_
      rcases List.mem_cons.mp hmem with heq | hmem
      · exact hbranch heq
      · exact hbranch (le_antisymm hbranchLe (hfirstLe branch hmem))

/-- A branch that is moved is behind what it finds at its turn, and is moved there. -/
theorem Pass.of_moved (h : Pass head branches site result after)
    (hlocal : ∀ name ∈ branches, RefName.isBranch name = true)
    (hsorted : branches.Pairwise fun earlier later => earlier ≤ later)
    (hmoved : after.resource.here.ref? branch ≠ site.resource.here.ref? branch) :
    ∃ upstream own other, site.resource.here.followedName? branch = some upstream ∧
      site.resource.here.ref? branch = some (.object own) ∧
      site.resource.here.found? after.resource.here branch upstream = some (.object other) ∧
      site.resource.here.objects.graph.ProperAncestor own other ∧
      after.resource.here.ref? branch = some (.object other) := by
  induction h with
  | done => exact absurd rfl hmoved
  | stops hturn => exact absurd (by rw [hturn.of_error.1]) hmoved
  | @goesOn first rest site next after result hturn hrest ih =>
    obtain ⟨hfirst, hrestLocal⟩ := List.forall_mem_cons.mp hlocal
    obtain ⟨hle, hrestSorted⟩ := List.pairwise_cons.mp hsorted
    have hturns := hturn.movesOnly hfirst
    have hmoves := hturns.trans (hrest.movesOnly hrestLocal)
    have hfirstLe : ∀ name ∈ first :: rest, first ≤ name :=
      List.forall_mem_cons.mpr ⟨le_rfl, hle⟩
    by_cases hbranch : branch = first
    · subst hbranch
      have hstays := hrest.ref?_eq_of_not_behind hrestLocal hrestSorted hle fun _ => hturn.not_behind
      cases hturn with
      | stays _ hresource => exact absurd (hstays.trans (by rw [hresource])) hmoved
      | @moves _ own other index hpair hbehind _ _ _ hhere =>
        obtain ⟨hown, upstream, hfollows, hother⟩ := Repository.pair?_eq_some_iff.mp hpair
        obtain ⟨-, -, hproper⟩ := Repository.standing_eq_behind_iff.mp hbehind
        refine ⟨upstream, own, other, hfollows, hown, (hmoves.found?_eq_ref? hfirstLe).trans hother,
          hproper, ?_⟩
        rw [hstays, hhere, Repository.ref?_setRef_self]
    · have hnext := hturns.ref?_eq (by simpa using hbranch)
      obtain ⟨upstream, own, other, hfollows, hown, hfound, hproper, hafter⟩ :=
        ih hrestLocal hrestSorted (hnext ▸ hmoved)
      have hmem : branch ∈ rest := by
        by_contra hnot
        exact hmoved (((hrest.movesOnly hrestLocal).ref?_eq hnot).trans hnext)
      rw [Repository.followedName?_congr hturns.configuration] at hfollows
      rw [hturns.found?_eq (hle branch hmem) hbranch] at hfound
      rw [hturns.objects] at hproper
      exact ⟨upstream, own, other, hfollows, hnext ▸ hown, hfound, hproper, hafter⟩

/-- The turn of a branch that the working tree does not show leaves index and working tree alone. -/
theorem Turn.hidden (h : Turn head branch site result after) (hhead : head ≠ some branch) :
    after.resource.here.index = site.resource.here.index ∧ after.files = site.files := by
  cases h with
  | stays _ hresource hfiles => exact ⟨by rw [hresource], hfiles⟩
  | fails _ _ hresource hfiles => exact ⟨by rw [hresource], hfiles⟩
  | moves _ _ _ hhidden _ hhere =>
    obtain ⟨hindex, hfiles⟩ := hhidden hhead
    rw [hhere, Repository.index_setRef]
    exact ⟨hindex, hfiles⟩

/-- Where the working tree refuses to follow the branch that it shows, the pass fails there. -/
theorem Pass.of_refused {reason : String} (h : Pass (some branch) branches site result after)
    (hlocal : ∀ name ∈ branches, RefName.isBranch name = true)
    (hsorted : branches.Pairwise fun earlier later => earlier ≤ later)
    (hshown : site.resource.here.headRef? = some branch) (hmem : branch ∈ branches)
    (hfollows : site.resource.here.followedName? branch = some upstream)
    (hown : site.resource.here.ref? branch = some (.object own))
    (hfound : site.resource.here.found? after.resource.here branch upstream = some (.object other))
    (hproper : site.resource.here.objects.graph.ProperAncestor own other)
    (hrefuses : Refuses site other reason) :
    (∃ e, result = .error e) ∧
      after.resource.here.ref? branch = site.resource.here.ref? branch ∧
      after.resource.here.index = site.resource.here.index ∧ after.files = site.files := by
  induction h with
  | done => cases hmem
  | stops hturn =>
    obtain ⟨hresource, hfiles⟩ := hturn.of_error
    exact ⟨⟨_, rfl⟩, by rw [hresource], by rw [hresource], hfiles⟩
  | @goesOn first rest site next after result hturn hrest ih =>
    obtain ⟨hfirst, hrestLocal⟩ := List.forall_mem_cons.mp hlocal
    obtain ⟨hle, hrestSorted⟩ := List.pairwise_cons.mp hsorted
    have hturns := hturn.movesOnly hfirst
    have hmoves := hturns.trans (hrest.movesOnly hrestLocal)
    have hfirstLe : ∀ name ∈ first :: rest, first ≤ name :=
      List.forall_mem_cons.mpr ⟨le_rfl, hle⟩
    by_cases hbranch : branch = first
    · exfalso
      subst hbranch
      have hother := (hmoves.found?_eq_ref? hfirstLe).symm.trans hfound
      have hpair := Repository.pair?_eq_some_iff.mpr ⟨hown, upstream, hfollows, hother⟩
      cases hturn with
      | stays hlevel =>
        obtain ⟨standing, hstanding, hne⟩ := hlevel own other hpair
        exact hne (Repository.behind_of_properAncestor hstanding hproper)
      | moves hpair' _ hagrees =>
        cases hpair.symm.trans hpair'
        obtain ⟨showing, hagrees, -⟩ := hagrees rfl
        cases hagrees.symm.trans hrefuses
    · have hlater := (List.mem_cons.mp hmem).resolve_left hbranch
      have hnext := hturns.ref?_eq (by simpa using hbranch)
      have hhead : ∀ name, site.resource.here.headRef? = some name → name ∉ [first] := by
        rintro name hname hmem
        cases hshown.symm.trans hname
        exact hbranch (List.mem_singleton.mp hmem)
      obtain ⟨hindex, hfiles⟩ := hturn.hidden (by simpa using hbranch)
      obtain ⟨herror, hsame, hsameIndex, hsameFiles⟩ := ih hrestLocal hrestSorted
        (hturns.headRef?_eq.trans hshown) hlater
        ((Repository.followedName?_congr hturns.configuration _).trans hfollows) (hnext.trans hown)
        ((hturns.found?_eq (hle branch hlater) hbranch).trans hfound)
        (by rw [hturns.objects]; exact hproper) (hrefuses.of_movesOnly hturns hhead hindex hfiles)
      exact ⟨herror, hsame.trans hnext, hsameIndex.trans hindex, hsameFiles.trans hfiles⟩

/-! ## A whole pass -/

/-- That no commits are dropped from local branches, whatever the result. -/
structure KeepsCommits (before after : Site Workspace) (result : Except Failure Unit) : Prop where
  forward : ∀ branch, RefName.isBranch branch = true →
    after.resource.here.ref? branch = before.resource.here.ref? branch ∨
      ∃ old new, before.resource.here.ref? branch = some (.object old) ∧
        after.resource.here.ref? branch = some (.object new) ∧
        before.resource.here.objects.graph.ProperAncestor old new
  /-- A branch that is level with what it finds at its turn, or ahead of it, or on another line. -/
  notBehind : ∀ branch upstream, before.resource.here.followedName? branch = some upstream →
    (∀ own other, before.resource.here.ref? branch = some (.object own) →
      before.resource.here.found? after.resource.here branch upstream = some (.object other) →
      ¬before.resource.here.objects.graph.ProperAncestor own other) →
    after.resource.here.ref? branch = before.resource.here.ref? branch
  followsNothing : ∀ branch, before.resource.here.followedName? branch = none →
    after.resource.here.ref? branch = before.resource.here.ref? branch
  symbolic : ∀ name target, before.resource.here.ref? name = some (.reference target) →
    after.resource.here.ref? name = before.resource.here.ref? name
  noBranch : ∀ name, RefName.isBranch name = false →
    after.resource.here.ref? name = before.resource.here.ref? name
  head : after.resource.here.head = before.resource.here.head ∧
    after.resource.here.headRef? = before.resource.here.headRef?
  /-- The branch that the working tree shows is behind, but the working tree refuses to follow. -/
  refused : ∀ branch upstream own other reason, RefName.isBranch branch = true →
    before.resource.here.headRef? = some branch →
    before.resource.here.followedName? branch = some upstream →
    before.resource.here.ref? branch = some (.object own) →
    before.resource.here.found? after.resource.here branch upstream = some (.object other) →
    before.resource.here.objects.graph.ProperAncestor own other → Refuses before other reason →
    (∃ e, result = .error e) ∧
      after.resource.here.ref? branch = before.resource.here.ref? branch ∧
      after.resource.here.index = before.resource.here.index ∧ after.files = before.files

/-- **Moving branches forward drops no commits**, also when it fails on the way. -/
theorem fastForward_keepsCommits (site : Site Workspace) :
    KeepsCommits site (fastForward.perform site).2 (fastForward.perform site).1 := by
  rcases hperform : fastForward.perform site with ⟨result, after⟩
  have hpass := pass_of_fastForward hperform
  have hlocal := isBranch_of_mem_branchRefs site.resource.here
  have hsorted := site.resource.here.pairwise_branchRefs
  have hmoves := hpass.movesOnly hlocal
  refine ⟨fun branch _ => ?_, fun branch upstream hfollows hnever => ?_, fun branch hnothing => ?_,
    fun name target hsymbolic => ?_, fun name hname => ?_, ⟨hmoves.head, hmoves.headRef?_eq⟩,
    fun branch upstream own other reason hbranch hshown hfollows hown => ?_⟩
  · by_contra! hmoved
    obtain ⟨-, own, other, -, hown, -, hproper, hafter⟩ :=
      hpass.of_moved hlocal hsorted hmoved.1
    exact hmoved.2 own other hown hafter hproper
  · by_contra hmoved
    obtain ⟨upstream', own, other, hfollows', hown, hfound, hproper, -⟩ :=
      hpass.of_moved hlocal hsorted hmoved
    cases hfollows.symm.trans hfollows'
    exact hnever own other hown hfound hproper
  · by_contra hmoved
    obtain ⟨upstream, -, -, hfollows, -⟩ := hpass.of_moved hlocal hsorted hmoved
    exact nomatch hnothing.symm.trans hfollows
  · by_contra hmoved
    obtain ⟨-, own, -, -, hown, -⟩ := hpass.of_moved hlocal hsorted hmoved
    exact nomatch hsymbolic.symm.trans hown
  · exact hmoves.ref?_eq fun hmem => by simp [hlocal name hmem] at hname
  · rw [hshown] at hpass
    exact hpass.of_refused hlocal hsorted hshown
      (Repository.mem_branchRefs_iff.mpr ⟨hbranch, by rw [hown]; rfl⟩) hfollows hown

/-- A branch is moved although it was level with what it follows. -/
theorem moved_of_level : ∃ branch own after,
    fastForward.perform (single chained) = (.ok (), after) ∧
      chained.pair? branch = some (own, own) ∧
      chained.ref? branch = some (.object own) ∧
      after.resource.here.ref? branch ≠ chained.ref? branch := by
  obtain ⟨after, hperform, hhere⟩ := perform_chained
  refine ⟨"refs/heads/topic", .uniform 'b', after, hperform, by decide +kernel, by decide +kernel, ?_⟩
  rw [hhere]
  decide +kernel

end Workspace

end CommitReports.Git
