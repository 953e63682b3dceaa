import CommitReports.Proofs.Git.Branch
import Mathlib.Data.String.Basic

/-!
# Moving branches forward

The local branches take their turns in the order of their names. At its turn a branch
stays, or the whole pass fails and nothing is changed by this turn, or it moves to the
commit that it is behind, for the branch of `HEAD` only if the working tree can follow
(`Turn`). So a pass, which is turn after turn up to the first failure (`Pass`), moves
nothing but branches, and these forward along the history (`MovesOnly`).

After its turn a branch is not behind (`Turn.not_behind`), and what a later turn moves is
a branch of a later name. So after a whole pass a branch can be behind only if it follows
a branch of a later name that was moved after it (`fastForward_settles`). There are such
branches: a chain of local branches is not followed through to its end
(`behind_of_chained`).
-/

namespace CommitReports.Git

namespace Repository

variable {repository before after : Repository} {branch upstream : String} {own other id : ObjectId}

/-! ## What does not matter for a comparison -/

/-- Whether a history is complete is a matter of the objects. -/
theorem complete_congr (h : after.objects = before.objects) : after.Complete id ↔ before.Complete id := by
  unfold Complete
  rw [h]

theorem Complete.of_reaches (h : repository.Complete own)
    (hreaches : repository.objects.graph.Reaches own other) : repository.Complete other :=
  fun id hid => h id (hreaches.trans hid)

/-- Whether a branch is behind is a matter of the objects, the configuration and two references. -/
theorem behind_congr (hobjects : after.objects = before.objects)
    (hconfiguration : after.configuration = before.configuration)
    (hbranch : after.ref? branch = before.ref? branch)
    (hupstream : after.ref? upstream = before.ref? upstream) :
    after.Behind branch upstream ↔ before.Behind branch upstream := by
  unfold Behind
  rw [followedName?_congr hconfiguration, hobjects, hbranch, hupstream]

/-- A branch that can be compared with what it follows, or has nothing to be compared with. -/
def Comparable (repository : Repository) (branch : String) : Prop :=
  ∀ own other, repository.pair? branch = some (own, other) →
    ∃ standing, repository.standing own other = .ok standing

/-- A reference was moved forward: the history of what it stands for leads to what it stood for. -/
def Forwarded (before after : Repository) (name : String) : Prop :=
  ∃ old new, before.ref? name = some (.object old) ∧ after.ref? name = some (.object new) ∧
    before.Complete new ∧ before.objects.graph.Reaches new old

end Repository

namespace Workspace

variable {head : Option String} {branch : String} {site after : Site Workspace}
  {result : Except Failure Unit}

/-! ## The turn of one branch -/

/-- The working tree cannot be brought to a commit, for a reason. -/
def Refuses (site : Site Workspace) (commit : ObjectId) (reason : String) : Prop :=
  site.resource.here.showFiles { files := site.files, root := site.resource.root }
    ((site.resource.here.snapshot? commit).getD []) = .error reason

theorem perform_showCommit (commit : ObjectId) (site : Site Workspace) :
    (showCommit commit).perform site =
      match site.resource.here.showFiles { files := site.files, root := site.resource.root }
          ((site.resource.here.snapshot? commit).getD []) with
      | .ok (repository, worktree) => (.ok (), { site with
          resource := site.resource.setRepository site.resource.root repository
          files := worktree.files })
      | .error reason => (.error (.unavailable reason), site) := by
  simp only [showCommit, Action.perform_bind, perform_present, Action.perform_files,
    Action.perform_resource]
  rcases site.resource.here.showFiles { files := site.files, root := site.resource.root }
    ((site.resource.here.snapshot? commit).getD []) with reason | ⟨repository, worktree⟩ <;> rfl

/-- Where the working tree follows, only the index of the repository is another one. -/
theorem showFiles_eq_ok {repository shown : Repository} {worktree showing : Worktree}
    {files : Snapshot} (h : repository.showFiles worktree files = .ok (shown, showing)) :
    ∃ index, shown = { repository with index } := by
  unfold Repository.showFiles at h
  split at h
  · cases h
  · split at h
    · cases h
      exact ⟨_, rfl⟩
    · cases h

/-- What becomes of a branch at its turn. -/
inductive Turn (head : Option String) (branch : String) (site : Site Workspace) :
    Except Failure Unit → Site Workspace → Prop
  /-- It is not behind. -/
  | stays {after : Site Workspace}
      (hlevel : ∀ own other, site.resource.here.pair? branch = some (own, other) →
        ∃ standing, site.resource.here.standing own other = .ok standing ∧ standing ≠ .behind)
      (hresource : after.resource = site.resource) (hfiles : after.files = site.files) :
      Turn head branch site (.ok ()) after
  /-- The commits cannot be compared, or the working tree refuses to follow. -/
  | fails {e : Failure} {after : Site Workspace} {own other : ObjectId}
      (hpair : site.resource.here.pair? branch = some (own, other))
      (hcause : (∃ fault, site.resource.here.standing own other = .error fault) ∨
        head = some branch ∧ site.resource.here.standing own other = .ok .behind ∧
          ∃ reason, Refuses site other reason)
      (hresource : after.resource = site.resource) (hfiles : after.files = site.files) :
      Turn head branch site (.error e) after
  /-- It moves to what it is behind. -/
  | moves {after : Site Workspace} {own other : ObjectId} {index : Option Snapshot}
      (hpair : site.resource.here.pair? branch = some (own, other))
      (hbehind : site.resource.here.standing own other = .ok .behind)
      (hfollows : head = some branch → ∃ showing,
        site.resource.here.showFiles { files := site.files, root := site.resource.root }
            ((site.resource.here.snapshot? other).getD []) =
          .ok ({ site.resource.here with index }, showing) ∧ after.files = showing.files)
      (hhidden : head ≠ some branch →
        index = site.resource.here.index ∧ after.files = site.files)
      (hroot : after.resource.root = site.resource.root)
      (hhere : after.resource.here =
        { site.resource.here with index }.setRef branch (.object other)) :
      Turn head branch site (.ok ()) after

/-- **One branch takes its turn.** -/
theorem turn_of_perform (h : (fastForwardBranch head branch).perform site = (result, after)) :
    Turn head branch site result after := by
  rw [fastForwardBranch, Action.perform_bind, perform_present] at h
  simp only at h
  split at h
  next hnone =>
    cases h
    exact .stays (fun own other hpair => by cases hnone.symm.trans hpair) rfl rfl
  next own other hpair =>
    -- A standing other than behind changes nothing but the notes.
    have hstays : ∀ {standing : Standing} {after : Site Workspace},
        site.resource.here.standing own other = .ok standing → standing ≠ .behind →
        after.resource = site.resource → after.files = site.files →
        Turn head branch site (.ok ()) after := by
      intro standing after hstanding hne
      refine .stays fun own' other' hpair' => ?_
      cases hpair.symm.trans hpair'
      exact ⟨standing, hstanding, hne⟩
    split at h
    next fault hfault =>
      cases h
      exact .fails hpair (.inl ⟨fault, hfault⟩) rfl rfl
    next hlevel => cases h; exact hstays hlevel (by decide) rfl rfl
    next hahead => cases h; exact hstays hahead (by decide) rfl rfl
    next hdiverged => cases h; exact hstays hdiverged (by decide) rfl rfl
    next hbehind =>
      rw [Action.debug, Action.perform_bind, Action.perform_say] at h
      simp only at h
      split at h
      next hhead =>
        rw [Action.perform_bind, perform_showCommit] at h
        rcases hshown : site.resource.here.showFiles
            { files := site.files, root := site.resource.root }
            ((site.resource.here.snapshot? other).getD []) with reason | ⟨repository, worktree⟩
        · rw [hshown] at h
          cases h
          exact .fails hpair (.inr ⟨hhead, hbehind, reason, hshown⟩) rfl rfl
        · rw [hshown] at h
          obtain ⟨index, rfl⟩ := showFiles_eq_ok hshown
          simp only at h
          rw [Action.perform_bind, perform_present] at h
          cases h
          have hhere := here_setRepository site.resource { site.resource.here with index }
          refine .moves hpair hbehind (fun _ => ⟨worktree, hshown, rfl⟩) (absurd hhead) rfl
            ((here_setRepository _ _).trans (congrArg (·.setRef branch (.object other)) hhere))
      next hhead =>
        rw [Action.perform_bind, perform_present] at h
        cases h
        exact .moves hpair hbehind (fun hhead' => absurd hhead' hhead) (fun _ => ⟨rfl, rfl⟩) rfl
          (here_setRepository _ _)

/-- A turn that fails changes nothing. -/
theorem Turn.of_error {e : Failure} (h : Turn head branch site (.error e) after) :
    after.resource = site.resource ∧ after.files = site.files := by
  cases h with
  | fails hpair hcause hresource hfiles => exact ⟨hresource, hfiles⟩

/-- After its turn a branch can be compared with what it follows, and is not behind. -/
theorem Turn.standing {own other : ObjectId} (h : Turn head branch site (.ok ()) after)
    (hpair : after.resource.here.pair? branch = some (own, other)) :
    ∃ standing, after.resource.here.standing own other = .ok standing ∧ standing ≠ .behind := by
  cases h with
  | stays hlevel hresource =>
    rw [hresource] at hpair ⊢
    exact hlevel own other hpair
  | @moves _ own' other' index hpair' _ _ _ _ hhere =>
    -- What it follows is where it was, and the branch is there now.
    obtain ⟨-, upstream, hfollows, hother'⟩ := Repository.pair?_eq_some_iff.mp hpair'
    obtain ⟨hown, upstream', hfollows', hother⟩ := Repository.pair?_eq_some_iff.mp hpair
    rw [hhere] at hown hfollows' hother
    rw [Repository.ref?_setRef_self] at hown
    cases hown
    rw [Repository.followedName?_congr (Repository.configuration_setRef _ _ _)] at hfollows'
    cases hfollows.symm.trans hfollows'
    have hlevel : own = other := by
      by_cases hself : upstream = branch
      · rw [hself, Repository.ref?_setRef_self] at hother
        cases hother
        rfl
      · rw [Repository.ref?_setRef_of_ne _ _ hself] at hother
        cases hother'.symm.trans hother
        rfl
    exact ⟨.level, if_pos hlevel, nofun⟩

theorem Turn.not_behind {upstream : String} (h : Turn head branch site (.ok ()) after) :
    ¬after.resource.here.Behind branch upstream := by
  rintro ⟨-, hfollows, own, other, hown, hother, hproper⟩
  obtain ⟨standing, hstanding, hne⟩ :=
    h.standing (Repository.pair?_eq_some_iff.mpr ⟨hown, upstream, hfollows, hother⟩)
  exact hne (Repository.behind_of_properAncestor hstanding hproper)

theorem Turn.comparable (h : Turn head branch site (.ok ()) after) :
    after.resource.here.Comparable branch := fun _ _ hpair =>
  (h.standing hpair).imp fun _ hstanding => hstanding.1

/-! ## Turn after turn -/

/-- What becomes of branches that take their turns one after the other. -/
inductive Pass (head : Option String) :
    List String → Site Workspace → Except Failure Unit → Site Workspace → Prop
  | done {site : Site Workspace} : Pass head [] site (.ok ()) site
  /-- A turn fails, and those after it are not taken. -/
  | stops {branch : String} {rest : List String} {site after : Site Workspace} {e : Failure}
      (hturn : Turn head branch site (.error e) after) : Pass head (branch :: rest) site (.error e) after
  | goesOn {branch : String} {rest : List String} {site next after : Site Workspace}
      {result : Except Failure Unit} (hturn : Turn head branch site (.ok ()) next)
      (hrest : Pass head rest next result after) : Pass head (branch :: rest) site result after

theorem pass_of_perform_forM {branches : List String}
    (h : (branches.forM (fastForwardBranch head)).perform site = (result, after)) :
    Pass head branches site result after := by
  induction branches generalizing site with
  | nil =>
    cases h
    exact .done
  | cons branch rest ih =>
    rw [List.forM_eq_forM, List.forM_cons, Action.perform_bind] at h
    rcases hturn : (fastForwardBranch head branch).perform site with ⟨⟨e⟩ | ⟨⟩, next⟩
    · rw [hturn] at h
      cases h
      exact .stops (turn_of_perform hturn)
    · rw [hturn] at h
      exact .goesOn (turn_of_perform hturn) (ih h)

/-- The local branches take their turns in the order of their names. -/
theorem pass_of_fastForward (h : fastForward.perform site = (result, after)) :
    Pass site.resource.here.headRef? site.resource.here.branchRefs site result after := by
  rw [fastForward, Action.perform_bind, perform_present] at h
  exact pass_of_perform_forM h

/-! ## What a pass leaves as it is -/

/-- Nothing but some of the references was moved, and these forward. -/
structure MovesOnly (branches : List String) (before after : Site Workspace) : Prop where
  root : after.resource.root = before.resource.root
  objects : after.resource.here.objects = before.resource.here.objects
  head : after.resource.here.head = before.resource.here.head
  configuration : after.resource.here.configuration = before.resource.here.configuration
  ref : ∀ name, after.resource.here.ref? name = before.resource.here.ref? name ∨
    name ∈ branches ∧ before.resource.here.Forwarded after.resource.here name

namespace MovesOnly

variable {branches rest : List String} {before next : Site Workspace} {name upstream : String}

theorem of_eq (h : after.resource = before.resource) : MovesOnly branches before after where
  root := by rw [h]
  objects := by rw [h]
  head := by rw [h]
  configuration := by rw [h]
  ref _ := .inl (by rw [h])

theorem complete_iff (h : MovesOnly branches before after) {id : ObjectId} :
    after.resource.here.Complete id ↔ before.resource.here.Complete id :=
  Repository.complete_congr h.objects

theorem ref?_eq (h : MovesOnly branches before after) (hname : name ∉ branches) :
    after.resource.here.ref? name = before.resource.here.ref? name :=
  (h.ref name).resolve_right fun hmoved => hname hmoved.1

theorem trans (hfirst : MovesOnly branches before next) (hrest : MovesOnly rest next after) :
    MovesOnly (branches ++ rest) before after where
  root := hrest.root.trans hfirst.root
  objects := hrest.objects.trans hfirst.objects
  head := hrest.head.trans hfirst.head
  configuration := hrest.configuration.trans hfirst.configuration
  ref name := by
    rcases hrest.ref name with hsame | ⟨hmem, old, new, hold, hnew, hcomplete, hreaches⟩
    · rw [hsame]
      exact (hfirst.ref name).imp_right fun ⟨hmem, old, new, hold, hnew, hforward⟩ =>
        ⟨List.mem_append_left _ hmem, old, new, hold, hsame.trans hnew, hforward⟩
    · rw [hfirst.objects] at hreaches
      rw [hfirst.complete_iff] at hcomplete
      refine .inr ⟨List.mem_append_right _ hmem, ?_⟩
      rcases hfirst.ref name with hsame | ⟨-, old', new', hold', hnew', -, hreaches'⟩
      · exact ⟨old, new, hsame ▸ hold, hnew, hcomplete, hreaches⟩
      · cases hnew'.symm.trans hold
        exact ⟨old', new, hold', hnew, hcomplete, hreaches.trans hreaches'⟩

end MovesOnly

theorem Turn.movesOnly (hbranch : RefName.isBranch branch = true)
    (h : Turn head branch site result after) : MovesOnly [branch] site after := by
  cases h with
  | stays hlevel hresource => exact .of_eq hresource
  | fails hpair hcause hresource => exact .of_eq hresource
  | @moves _ own other index hpair hbehind hfollows hhidden hroot hhere =>
    obtain ⟨hown, -⟩ := Repository.pair?_eq_some_iff.mp hpair
    obtain ⟨-, hcomplete, hproper⟩ := Repository.standing_eq_behind_iff.mp hbehind
    refine ⟨hroot, ?_, ?_, ?_, fun name => ?_⟩
    · rw [hhere, Repository.objects_setRef]
    · rw [hhere, Repository.head_setRef _ _ (Repository.ne_head_of_isBranch hbranch)]
    · rw [hhere, Repository.configuration_setRef]
    · by_cases hname : name = branch
      · subst hname
        refine .inr ⟨List.mem_singleton_self _, own, other, hown, ?_, hcomplete, hproper.2⟩
        rw [hhere, Repository.ref?_setRef_self]
      · left
        rw [hhere, Repository.ref?_setRef_of_ne _ _ hname]
        rfl

theorem Pass.movesOnly {branches : List String} (h : Pass head branches site result after)
    (hbranches : ∀ name ∈ branches, RefName.isBranch name = true) :
    MovesOnly branches site after := by
  induction h with
  | done => exact .of_eq rfl
  | stops hturn => exact .of_eq hturn.of_error.1
  | goesOn hturn hrest ih =>
    obtain ⟨hbranch, hrest⟩ := List.forall_mem_cons.mp hbranches
    exact (hturn.movesOnly hbranch).trans (ih hrest)

/-! ## What is behind afterwards -/

/-- A branch that can be compared still can when others were moved forward. -/
theorem MovesOnly.comparable {branches : List String} (h : MovesOnly branches site after)
    (hbranch : branch ∉ branches) (hcomparable : site.resource.here.Comparable branch) :
    after.resource.here.Comparable branch := by
  intro own other hpair
  obtain ⟨hown, upstream, hfollows, hother⟩ := Repository.pair?_eq_some_iff.mp hpair
  rw [h.ref?_eq hbranch] at hown
  rw [Repository.followedName?_congr h.configuration] at hfollows
  rw [Repository.standing_isOk_iff, h.complete_iff, h.complete_iff]
  rcases h.ref upstream with hsame | ⟨-, old, new, hold, hnew, hcomplete, hreaches⟩
  · rw [hsame] at hother
    exact Repository.standing_isOk_iff.mp (hcomparable own other
      (Repository.pair?_eq_some_iff.mpr ⟨hown, upstream, hfollows, hother⟩))
  · cases hnew.symm.trans hother
    have hstanding := Repository.standing_isOk_iff.mp (hcomparable own old
      (Repository.pair?_eq_some_iff.mpr ⟨hown, upstream, hfollows, hold⟩))
    refine .inr ⟨?_, hcomplete⟩
    rcases hstanding with rfl | ⟨hown, -⟩
    · exact hcomplete.of_reaches hreaches
    · exact hown

/-- After a pass its branches can be compared with what they follow. -/
theorem Pass.comparable {branches : List String} (h : Pass head branches site result after)
    (hok : result = .ok ()) (hlocal : ∀ name ∈ branches, RefName.isBranch name = true) :
    ∀ branch ∈ branches, after.resource.here.Comparable branch := by
  induction h with
  | done => exact nofun
  | stops => cases hok
  | @goesOn first rest _ _ _ _ hturn hrest ih =>
    intro branch hmem
    by_cases hlater : branch ∈ rest
    · exact ih hok (List.forall_mem_cons.mp hlocal).2 branch hlater
    · obtain rfl := (List.mem_cons.mp hmem).resolve_right hlater
      exact (hrest.movesOnly (List.forall_mem_cons.mp hlocal).2).comparable hlater hturn.comparable

/-- A branch that is behind after a pass follows a branch of a later name, which was moved. -/
theorem Pass.of_behind {branches : List String} {upstream : String}
    (h : Pass head branches site result after) (hok : result = .ok ())
    (hlocal : ∀ name ∈ branches, RefName.isBranch name = true)
    (hsorted : branches.Pairwise fun earlier later => earlier ≤ later) (hmem : branch ∈ branches)
    (hbehind : after.resource.here.Behind branch upstream) :
    branch < upstream ∧ upstream ∈ branches ∧
      after.resource.here.ref? upstream ≠ site.resource.here.ref? upstream := by
  induction h with
  | done => cases hmem
  | stops => cases hok
  | @goesOn first rest site next after _ hturn hrest ih =>
    obtain ⟨hfirst, hrestLocal⟩ := List.forall_mem_cons.mp hlocal
    obtain ⟨hle, hsorted⟩ := List.pairwise_cons.mp hsorted
    have hnext : ∀ name, first < name →
        next.resource.here.ref? name = site.resource.here.ref? name := fun name hlt =>
      (hturn.movesOnly hfirst).ref?_eq (by simpa using hlt.ne')
    by_cases hlater : branch ∈ rest
    · obtain ⟨hlt, hupstream, hmoved⟩ := ih hok hrestLocal hsorted hlater hbehind
      refine ⟨hlt, List.mem_cons_of_mem _ hupstream, ?_⟩
      rwa [← hnext upstream ((hle branch hlater).trans_lt hlt)]
    · -- This was the last turn of the branch, so what it follows was moved after it.
      obtain rfl := (List.mem_cons.mp hmem).resolve_right hlater
      have hmoves := hrest.movesOnly hrestLocal
      have hmoved : after.resource.here.ref? upstream ≠ next.resource.here.ref? upstream := fun hsame =>
        hturn.not_behind ((Repository.behind_congr hmoves.objects hmoves.configuration
          (hmoves.ref?_eq hlater) hsame).mp hbehind)
      have hupstream : upstream ∈ rest := by
        by_contra hnot
        exact hmoved (hmoves.ref?_eq hnot)
      have hlt : branch < upstream :=
        (hle upstream hupstream).lt_of_ne fun heq => hlater (heq ▸ hupstream)
      exact ⟨hlt, List.mem_cons_of_mem _ hupstream, hnext upstream hlt ▸ hmoved⟩

/-- Where no branch is behind, a pass changes nothing. -/
theorem Pass.of_settled {branches : List String} (h : Pass head branches site result after)
    (hlocal : ∀ name ∈ branches, RefName.isBranch name = true)
    (hcomparable : ∀ name ∈ branches, site.resource.here.Comparable name)
    (hsettled : ∀ branch upstream, ¬site.resource.here.Behind branch upstream) :
    result = .ok () ∧ after.resource = site.resource ∧ after.files = site.files := by
  induction h with
  | done => exact ⟨rfl, rfl, rfl⟩
  | stops hturn =>
    cases hturn with
    | fails hpair hcause =>
      exfalso
      rcases hcause with ⟨fault, hfault⟩ | ⟨-, hbehind, -⟩
      · obtain ⟨standing, hstanding⟩ := hcomparable _ List.mem_cons_self _ _ hpair
        exact nomatch hfault.symm.trans hstanding
      · obtain ⟨upstream, hbehind⟩ :=
          Repository.behind_of_pair (hlocal _ List.mem_cons_self) hpair hbehind
        exact hsettled _ upstream hbehind
  | goesOn hturn hrest ih =>
    cases hturn with
    | stays hlevel hresource hfiles =>
      rw [← hresource] at hcomparable hsettled
      obtain ⟨hok, hsame, hsameFiles⟩ := ih (List.forall_mem_cons.mp hlocal).2
        (List.forall_mem_cons.mp hcomparable).2 hsettled
      exact ⟨hok, hsame.trans hresource, hsameFiles.trans hfiles⟩
    | moves hpair hbehind =>
      obtain ⟨upstream, hbehind⟩ :=
        Repository.behind_of_pair (hlocal _ List.mem_cons_self) hpair hbehind
      exact absurd hbehind (hsettled _ upstream)

/-- Branches are neither made nor lost. -/
theorem MovesOnly.mem_branchRefs_iff {branches : List String} {name : String}
    (h : MovesOnly branches site after) :
    name ∈ after.resource.here.branchRefs ↔ name ∈ site.resource.here.branchRefs := by
  rw [Repository.mem_branchRefs_iff, Repository.mem_branchRefs_iff]
  refine and_congr_right fun _ => ?_
  rcases h.ref name with hsame | ⟨-, old, new, hold, hnew, -⟩
  · rw [hsame]
  · rw [hold, hnew]
    rfl

theorem isBranch_of_mem_branchRefs (repository : Repository) :
    ∀ name ∈ repository.branchRefs, RefName.isBranch name = true := fun _ hname =>
  (Repository.mem_branchRefs_iff.mp hname).1

theorem upstream_moved_of_behind {upstream : String} (h : fastForward.perform site = (.ok (), after))
    (hbehind : after.resource.here.Behind branch upstream) :
    branch < upstream ∧ upstream ∈ site.resource.here.branchRefs ∧
      after.resource.here.ref? upstream ≠ site.resource.here.ref? upstream := by
  have hpass := pass_of_fastForward h
  have hlocal := isBranch_of_mem_branchRefs site.resource.here
  refine hpass.of_behind rfl hlocal (Repository.pairwise_branchRefs _) ?_ hbehind
  obtain ⟨hbranch, -, own, -, hown, -⟩ := hbehind
  rw [← (hpass.movesOnly hlocal).mem_branchRefs_iff, Repository.mem_branchRefs_iff, hown]
  exact ⟨hbranch, rfl⟩

/-- **Which branches are behind when all were moved forward**: only such as follow a branch of a
later name that was moved. Where there are none, and only there, moving forward once more changes
nothing. -/
theorem fastForward_settles (h : fastForward.perform site = (.ok (), after)) :
    (∀ branch upstream, after.resource.here.Behind branch upstream →
      branch < upstream ∧ upstream ∈ site.resource.here.branchRefs ∧
        after.resource.here.ref? upstream ≠ site.resource.here.ref? upstream) ∧
    ((∀ branch upstream, ¬after.resource.here.Behind branch upstream) ↔
      ∃ again, fastForward.perform after = (.ok (), again) ∧
        again.resource = after.resource ∧ again.files = after.files) := by
  have hpass := pass_of_fastForward h
  have hlocal := isBranch_of_mem_branchRefs site.resource.here
  refine ⟨fun branch upstream => upstream_moved_of_behind h, fun hsettled => ?_, ?_⟩
  · rcases hagain : fastForward.perform after with ⟨result, again⟩
    have hcomparable : ∀ name ∈ after.resource.here.branchRefs,
        after.resource.here.Comparable name := fun name hname =>
      hpass.comparable rfl hlocal name ((hpass.movesOnly hlocal).mem_branchRefs_iff.mp hname)
    obtain ⟨rfl, hunchanged⟩ := (pass_of_fastForward hagain).of_settled
      (isBranch_of_mem_branchRefs _) hcomparable hsettled
    exact ⟨again, rfl, hunchanged⟩
  · rintro ⟨again, hagain, hsame, -⟩ branch upstream hbehind
    -- What is still behind the second time follows a branch that was moved the second time.
    rw [← hsame] at hbehind
    obtain ⟨-, -, hmoved⟩ := upstream_moved_of_behind hagain hbehind
    exact hmoved (by rw [hsame])

/-! ## A chain of branches -/

theorem Turn.of_level {own : ObjectId} (h : Turn head branch site result after)
    (hpair : site.resource.here.pair? branch = some (own, own)) :
    result = .ok () ∧ after.resource.here = site.resource.here := by
  have hlevel : site.resource.here.standing own own = .ok .level := if_pos rfl
  cases h with
  | stays _ hresource => exact ⟨rfl, by rw [hresource]⟩
  | fails hpair' hcause =>
    cases hpair.symm.trans hpair'
    rcases hcause with ⟨fault, hfault⟩ | ⟨-, hbehind, -⟩
    · exact nomatch hlevel.symm.trans hfault
    · exact nomatch hlevel.symm.trans hbehind
  | moves hpair' hbehind =>
    cases hpair.symm.trans hpair'
    exact nomatch hlevel.symm.trans hbehind

theorem Turn.of_behind {own other : ObjectId} (h : Turn head branch site result after)
    (hhead : head ≠ some branch) (hpair : site.resource.here.pair? branch = some (own, other))
    (hbehind : site.resource.here.standing own other = .ok .behind) :
    result = .ok () ∧ after.resource.here = site.resource.here.setRef branch (.object other) := by
  cases h with
  | stays hlevel =>
    obtain ⟨standing, hstanding, hne⟩ := hlevel own other hpair
    exact absurd (Except.ok.inj (hstanding.symm.trans hbehind)) hne
  | fails hpair' hcause =>
    cases hpair.symm.trans hpair'
    rcases hcause with ⟨fault, hfault⟩ | ⟨hhead', -, -⟩
    · exact nomatch hbehind.symm.trans hfault
    · exact absurd hhead' hhead
  | moves hpair' _ _ hhidden _ hhere =>
    cases hpair.symm.trans hpair'
    rw [(hhidden hhead).1] at hhere
    exact ⟨rfl, hhere⟩

/-- Three branches at one commit, of which one follows a remote and two follow that one. -/
def chained : Repository where
  objects := .merged
  head := .reference "refs/heads/unborn"
  refs := [("refs/heads/develop", .object (.uniform 'b')), ("refs/heads/main", .object (.uniform 'b')),
    ("refs/heads/topic", .object (.uniform 'b')),
    ("refs/remotes/origin/main", .object (.uniform 'd'))]
  configuration := { values := [
    ("branch.develop.remote", "."), ("branch.develop.merge", "refs/heads/main"),
    ("branch.main.remote", "."), ("branch.main.merge", "refs/remotes/origin/main"),
    ("branch.topic.remote", "."), ("branch.topic.merge", "refs/heads/main")] }

theorem standing_merged {repository : Repository} (h : repository.objects = .merged) :
    repository.standing (.uniform 'b') (.uniform 'd') = .ok .behind := by
  have hcomplete : ∀ id ∈ ObjectStore.merged.graph.nodes, repository.Complete id := by
    intro id hmem other hreaches
    rw [h] at hreaches ⊢
    exact ObjectStore.commit_of_reaches_merged hmem hreaches
  refine Repository.standing_eq_behind_iff.mpr ⟨hcomplete _ ?_, hcomplete _ ?_, by decide, ?_⟩
  · rw [ObjectStore.graph_merged]; decide
  · rw [ObjectStore.graph_merged]; decide
  · rw [h, ObjectStore.graph_merged]
    exact .of_parent (by decide)

theorem branchRefs_chained :
    chained.branchRefs = ["refs/heads/develop", "refs/heads/main", "refs/heads/topic"] := by
  have hnames : (chained.refs.map (·.1)).filter RefName.isBranch =
      ["refs/heads/develop", "refs/heads/main", "refs/heads/topic"] := by decide +kernel
  rw [Repository.branchRefs, hnames]
  exact List.mergeSort_of_pairwise (by decide +kernel)

/-- The branch that takes its turn before the one that it follows is left behind. -/
theorem perform_chained : ∃ after, fastForward.perform (single chained) = (.ok (), after) ∧
    after.resource.here = (chained.setRef "refs/heads/main" (.object (.uniform 'd'))).setRef
      "refs/heads/topic" (.object (.uniform 'd')) := by
  rcases hperform : fastForward.perform (single chained) with ⟨result, after⟩
  have hpass := pass_of_fastForward hperform
  have hhere : (single chained).resource.here = chained := rfl
  have hhead : chained.headRef? = none := by decide +kernel
  rw [hhere, hhead, branchRefs_chained] at hpass
  have hdevelop : chained.pair? "refs/heads/develop" = some (.uniform 'b', .uniform 'b') := by
    decide +kernel
  have hmain : chained.pair? "refs/heads/main" = some (.uniform 'b', .uniform 'd') := by
    decide +kernel
  have htopic : (chained.setRef "refs/heads/main" (.object (.uniform 'd'))).pair? "refs/heads/topic" =
      some (.uniform 'b', .uniform 'd') := by decide +kernel
  -- The three turns, one after the other.
  rcases hpass with - | hturn | ⟨hturn, hpass⟩
  · cases (hturn.of_level hdevelop).1
  obtain ⟨-, hfirst⟩ := hturn.of_level hdevelop
  rw [hhere] at hfirst
  rw [← hfirst] at hmain htopic
  rcases hpass with - | hturn | ⟨hturn, hpass⟩
  · cases (hturn.of_behind nofun hmain (standing_merged (by rw [hfirst]; rfl))).1
  obtain ⟨-, hsecond⟩ := hturn.of_behind nofun hmain (standing_merged (by rw [hfirst]; rfl))
  rw [← hsecond] at htopic
  rcases hpass with - | hturn | ⟨hturn, hpass⟩
  · cases (hturn.of_behind nofun htopic (standing_merged (by rw [hsecond, hfirst]; rfl))).1
  obtain ⟨-, hthird⟩ := hturn.of_behind nofun htopic (standing_merged (by rw [hsecond, hfirst]; rfl))
  cases hpass
  exact ⟨_, rfl, by rw [hthird, hsecond, hfirst]⟩

/-- Its first branch is behind when all were moved forward. -/
theorem behind_of_chained : ∃ after, fastForward.perform (single chained) = (.ok (), after) ∧
    after.resource.here.Behind "refs/heads/develop" "refs/heads/main" := by
  obtain ⟨after, hperform, hhere⟩ := perform_chained
  refine ⟨after, hperform, ?_⟩
  rw [hhere]
  have hmerged : ((chained.setRef "refs/heads/main" (.object (.uniform 'd'))).setRef
      "refs/heads/topic" (.object (.uniform 'd'))).objects = .merged := rfl
  obtain ⟨-, -, hproper⟩ := Repository.standing_eq_behind_iff.mp (standing_merged hmerged)
  exact ⟨by decide +kernel, by decide +kernel, .uniform 'b', .uniform 'd', by decide +kernel,
    by decide +kernel, hproper⟩

theorem fastForward_settles_chained : ∃ after,
    fastForward.perform (single chained) = (.ok (), after) ∧
    (∀ branch upstream, after.resource.here.Behind branch upstream →
      branch < upstream ∧ upstream ∈ (single chained).resource.here.branchRefs ∧
        after.resource.here.ref? upstream ≠ (single chained).resource.here.ref? upstream) ∧
    ((∀ branch upstream, ¬after.resource.here.Behind branch upstream) ↔
      ∃ again, fastForward.perform after = (.ok (), again) ∧
        again.resource = after.resource ∧ again.files = after.files) := by
  obtain ⟨after, hperform, -⟩ := perform_chained
  exact ⟨after, hperform, fastForward_settles hperform⟩

end Workspace

end CommitReports.Git
