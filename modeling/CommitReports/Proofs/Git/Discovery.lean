import CommitReports.Proofs.Git.Untracked
import CommitReports.Proofs.History.Simulation
import CommitReports.Proofs.Watermarks.Pinned

/-!
# Discovery from two spellings

What a repository answers on commits is a matter of the workspace, not of what was said
before (`Workspace.Same`, `Same.concurs`). So the walk from a commit lists the same at two
such sites in whatever way the commit is spelled, and what it lists are full hashes
(`Same.commitsBetween_parallels`).

Discovering the new commits of a branch comes to the same then, from two watermarks that
stand for one commit (`discover_parallels`). Branches may be checked out on the way,
beside a file that is not tracked. The sample is a branch on which nothing is new, spelled
in two ways (`discover_keeping`).
-/

namespace CommitReports.Git

/-- The text is the full hash of a commit. -/
def ObjectStore.IsCommitHash (objects : ObjectStore) (text : String) : Prop :=
  ∃ id info, objects.commit id = .ok info ∧ text = id.hex

/-- What a walk lists are commits that can be read. -/
theorem Repository.commit_of_mem_commitsBetween {repository : Repository}
    {since upto id : ObjectId} {ids : List ObjectId}
    (h : repository.commitsBetween since upto = .ok ids) (hid : id ∈ ids) :
    ∃ info, repository.objects.commit id = .ok info := by
  unfold Repository.commitsBetween at h
  split at h
  next => cases h
  next hupto =>
    split at h
    next => cases h
    next =>
      cases h
      exact gap?_eq_none_iff.mp hupto id (Graph.reaches_of_mem_between hid).1

namespace Workspace

/-- The relation holds between sites with the same workspace, whatever is said at either. -/
structure Same (R : Site Workspace → Site Workspace → Prop) : Prop where
  resource : ∀ site site', R site site' → site'.resource = site.resource
  say : ∀ note note', (Action.say note : Action Workspace Unit).Simulates R (Action.say note')

namespace Same

variable {R : Site Workspace → Site Workspace → Prop} (h : Same R)

include h

theorem present_simulates : present.Simulates R present := by
  intro site site' hsites
  rw [perform_present, perform_present, h.resource site site' hsites]
  exact ⟨rfl, hsites⟩

theorem commitNamed_simulates (name : String) :
    (commitNamed name).Simulates R (commitNamed name) := by
  refine h.present_simulates.bind fun repository => ?_
  cases repository.commitNamed? name with
  | some id => exact .pure id
  | none => exact .throw _

theorem infoOf_simulates (commit : ObjectId) : (infoOf commit).Simulates R (infoOf commit) := by
  refine h.present_simulates.bind fun repository => ?_
  split
  · exact .pure _
  · exact .throw _
  · exact .throw _

theorem filesOf_simulates (commit : ObjectId) : (filesOf commit).Simulates R (filesOf commit) :=
  h.present_simulates.bind fun _ => .pure _

theorem whatChanged_simulates (name : String) :
    (whatChanged name).Simulates R (whatChanged name) := by
  refine (h.say _ _).bind fun _ => (h.commitNamed_simulates name).bind fun commit =>
    (h.infoOf_simulates commit).bind fun info => ?_
  split
  · exact (Action.Simulates.pure _).bind fun _ => (h.filesOf_simulates commit).bind fun _ => .pure _
  · exact (h.infoOf_simulates _).bind fun _ => (h.filesOf_simulates _).bind fun _ =>
      (h.filesOf_simulates commit).bind fun _ => .pure _

theorem diff_simulates (base : Option String) (tip : String) :
    (diff base tip).Simulates R (diff base tip) := by
  have htip : ∀ before, (do
      let after ← filesOf (← commitNamed tip)
      return Text.dropFinalNewline (patchText (← present).objects (Delta.between before after)) :
        Action Workspace String).Simulates R (do
      let after ← filesOf (← commitNamed tip)
      return Text.dropFinalNewline (patchText (← present).objects (Delta.between before after))) :=
    fun _ => (h.commitNamed_simulates tip).bind fun _ => (h.filesOf_simulates _).bind fun _ =>
      h.present_simulates.bind fun _ => .pure _
  refine (h.say _ _).bind fun _ => ?_
  cases base with
  | none => exact (Action.Simulates.pure _).bind htip
  | some base =>
    exact (h.commitNamed_simulates base).bind fun _ => (h.filesOf_simulates _).bind htip

/-- At sites with the same workspace, the same is answered on single commits. -/
theorem concurs : History.Concurs R where
  say note := h.say note note
  resolve name := (h.say _ _).bind fun _ => (h.commitNamed_simulates name).bind fun _ => .pure _
  parent name := (h.say _ _).bind fun _ => (h.commitNamed_simulates name).bind fun _ =>
    (h.infoOf_simulates _).bind fun _ => .pure _
  whatChanged := h.whatChanged_simulates
  diff := h.diff_simulates

/-- **The walk lists the same however its start is spelled**, and lists full hashes. -/
theorem commitsBetween_parallels {objects : ObjectStore} {since since' : String} (upto : String)
    (hobjects : ∀ site site', R site site' → site.resource.here.objects = objects)
    (hsince : ∀ site site', R site site' → ∃ id, site.resource.here.commitNamed? since = some id ∧
      site.resource.here.commitNamed? since' = some id) :
    (commitsBetween since upto).Parallels R (commitsBetween since' upto) fun hashes hashes' =>
      (∀ hash ∈ hashes, objects.IsCommitHash hash) ∧ hashes = hashes' := by
  have hnamed : (commitNamed since).Simulates R (commitNamed since') := by
    intro site site' hsites
    obtain ⟨id, hid, hid'⟩ := hsince site site' hsites
    rw [perform_commitNamed, perform_commitNamed, h.resource site site' hsites, hid, hid']
    exact ⟨rfl, hsites⟩
  have hpresent : present.Parallels R present fun repository repository' =>
      repository.objects = objects ∧ repository = repository' := by
    intro site site' hsites
    rw [perform_present, perform_present, h.resource site site' hsites]
    exact ⟨.ok ⟨hobjects site site' hsites, rfl⟩, hsites⟩
  refine .bind_simulates (h.say _ _) fun _ => .bind_simulates hnamed fun hidden =>
    .bind_simulates (h.commitNamed_simulates upto) fun tip => hpresent.bind ?_
  rintro repository _ ⟨hstore, rfl⟩
  cases hlisted : repository.commitsBetween hidden tip with
  | error fault => exact .throw _
  | ok ids =>
    refine .pure ⟨?_, rfl⟩
    rw [List.forall_mem_map]
    intro id hid
    obtain ⟨info, hinfo⟩ := Repository.commit_of_mem_commitsBetween hlisted hid
    exact ⟨id, info, hstore ▸ hinfo, rfl⟩

end Same

/-! ## New commits -/

variable {start : Workspace} {checkout : Bool} {branches : List String} {place : Place}

theorem Twins.same : Same (Twins start checkout branches place) where
  resource _ _ hsites := hsites.resource
  say _ _ _ _ hsites :=
    ⟨rfl, hsites.resource, hsites.files, hsites.room, hsites.root, hsites.since⟩

/-- Both lists are the same commits on a branch, given by their full hashes. -/
structure SameListing (objects : ObjectStore) (branch : Branch) (commits commits' : List Commit) :
    Prop where
  full : ∀ commit ∈ commits, commit.branch = branch ∧ objects.IsCommitHash commit.hash
  same : commits = commits'

section Spelled

variable {watermark watermark' : Commit} {id : ObjectId}
  (hstands : start.here.Stands checkout watermark.hash id)
  (hstands' : start.here.Stands checkout watermark'.hash id)

include hstands hstands'

theorem newCommitsSince_parallels (branch : Branch) :
    (watermark.newCommitsSince branch : Action Workspace (List Commit)).Parallels
      (Twins start checkout branches place) (watermark'.newCommitsSince branch)
      (SameListing start.here.objects branch) := by
  let R := Twins start checkout branches place
  have hwalked : (commitsBetween watermark.hash branch.name).Parallels R
      (commitsBetween watermark'.hash branch.name) fun hashes hashes' =>
        (∀ hash ∈ hashes, start.here.objects.IsCommitHash hash) ∧ hashes = hashes' := by
    refine Twins.same.commitsBetween_parallels _ (fun _ _ hsites => hsites.since.objects) ?_
    intro site site' hsites
    exact ⟨id, hstands _ hsites.since.toUpToHead, hstands' _ hsites.since.toUpToHead⟩
  have hlooked : ∀ hash, start.here.objects.IsCommitHash hash →
      (Commit.lookup hash branch : Action Workspace Commit).Parallels R (Commit.lookup hash branch)
        fun commit commit' => (commit.branch = branch ∧
          start.here.objects.IsCommitHash commit.hash) ∧ commit = commit' := by
    intro hash hhash
    have hverified : (Revision.verify ⟨hash⟩ : Action Workspace Unit).Simulates R
        (Revision.verify ⟨hash⟩) :=
      (Twins.same.concurs.resolve hash).bind fun _ => .pure _
    have hrevision : (Revision.lookup hash : Action Workspace Revision).Parallels R
        (Revision.lookup hash) fun revision revision' => revision.name = hash ∧ revision = revision' :=
      .bind_simulates hverified fun _ => .pure ⟨rfl, rfl⟩
    refine hrevision.bind ?_
    rintro revision _ ⟨rfl, rfl⟩
    exact .pure ⟨⟨rfl, hhash⟩, rfl⟩
  refine hwalked.bind ?_
  rintro hashes _ ⟨hhashes, rfl⟩
  have hall := Action.Parallels.mapM
    (List.forall₂_same.mpr fun hash hmem => hlooked hash (hhashes hash hmem))
  refine hall.mono fun commits commits' hcommits => ?_
  rw [List.forall₂_and_left, List.forall₂_eq_eq_eq] at hcommits
  exact ⟨hcommits.1, hcommits.2⟩

/-- **The same commits are new however the watermark is spelled**, and each is given by its full
hash. -/
theorem discover_parallels (hbranch : watermark'.branch = watermark.branch)
    (hname : watermark.branch.name ∈ branches)
    (huntracked : checkout = true → start.Untracked branches place) :
    (CommitReports.discover watermark checkout : Action Workspace (List Commit)).Parallels
      (Twins start checkout branches place) (CommitReports.discover watermark' checkout)
      (SameListing start.here.objects watermark.branch) := by
  have hlisted : (watermark.newCommitsSince watermark.branch).Parallels
      (Twins start checkout branches place) (watermark'.newCommitsSince watermark.branch)
      (SameListing start.here.objects watermark.branch) :=
    newCommitsSince_parallels hstands hstands' watermark.branch
  -- What is said of the new commits quotes the watermark, so it is not the same.
  have htold : ∀ note note' newest newest',
      SameListing start.here.objects watermark.branch newest newest' →
      (do Action.say note; return newest.reverse : Action Workspace (List Commit)).Parallels
        (Twins start checkout branches place) (do Action.say note'; return newest'.reverse)
        (SameListing start.here.objects watermark.branch) := by
    rintro note note' newest _ ⟨hfull, rfl⟩
    exact .bind_simulates (Twins.same.say note note') fun _ =>
      .pure ⟨fun commit hcommit => hfull commit (List.mem_reverse.mp hcommit), rfl⟩
  unfold CommitReports.discover
  rw [hbranch]
  cases checkout with
  | false => exact hlisted.bind fun _ _ hnewest => htold _ _ _ _ hnewest
  | true =>
    exact .bind_simulates (checkout_simulates hname (huntracked rfl)) fun _ =>
      hlisted.bind fun _ _ hnewest => htold _ _ _ _ hnewest

end Spelled

end Workspace

/-! ## A branch that is checked out -/

namespace ObjectStore

/-- A root leads to nothing but itself. -/
theorem eq_of_reaches_root {objects : ObjectStore} {id other : ObjectId} {info : CommitInfo}
    (h : objects.commit id = .ok info) (hroot : info.parents = [])
    (hreach : objects.graph.Reaches id other) : other = id := by
  rcases Relation.ReflTransGen.cases_head hreach with rfl | ⟨parent, hparent, -⟩
  · rfl
  · obtain ⟨info', hinfo', hmem⟩ := mem_parentsOf_graph.mp hparent
    cases h.symm.trans hinfo'
    rw [hroot] at hmem
    cases hmem

end ObjectStore

namespace Repository

/-- The commit may be given by its full hash, or by the first digits of it. -/
theorem isHash_keeping (checkedOut : Bool) {hash : String}
    (hhash : hash ∈ ["aaaa", (ObjectId.uniform 'a').hex]) : (keeping checkedOut).IsHash hash := by
  have hcontains : ObjectStore.keeping.contains (.uniform 'a') = true := by decide +kernel
  have hdigits : "aaaa".toList.all Text.isHexDigit = true := by decide +kernel
  have hunnamed : ∀ checkedOut, ∀ other ∈ RevisionName.candidates "aaaa",
      (keeping checkedOut).ref? other = none := by
    decide +kernel
  rcases List.mem_pair.mp hhash with rfl | rfl
  · exact .digits (List.all_eq_true.mp hdigits) (hunnamed checkedOut)
  · exact .full (ObjectId.ofText?_uniform (by decide) (by decide)) hcontains

theorem commitNamed?_of_commit {repository : Repository} {text : String} {id : ObjectId}
    {info : CommitInfo} (hplain : RevisionName.ofText? text = some { base := text, steps := [] })
    (hobject : repository.objectNamed? text = some id)
    (hcommit : repository.objects.commit id = .ok info) :
    repository.commitNamed? text = some id := by
  obtain ⟨hkind, hpeel⟩ := ObjectStore.peelTo_commit hcommit
  exact (commitNamed?_plain hplain).mpr ⟨id, hobject, congrArg Option.isSome hkind, hpeel⟩

theorem commitNamed?_dev (checkedOut : Bool) :
    (keeping checkedOut).commitNamed? "dev" = some (.uniform 'a') := by
  have hobject : ∀ checkedOut, (keeping checkedOut).objectNamed? "dev" = some (.uniform 'a') := by
    decide +kernel
  exact commitNamed?_of_commit (by decide +kernel) (hobject checkedOut)
    ObjectStore.commit_keeping.2

/-- Either spelling leads to the commit, whatever is checked out. -/
theorem commitNamed?_spelled (checkedOut : Bool) {hash : String}
    (hhash : hash ∈ ["aaaa", (ObjectId.uniform 'a').hex]) :
    (keeping checkedOut).commitNamed? hash = some (.uniform 'a') := by
  rcases List.mem_pair.mp hhash with rfl | rfl
  · have hid : ObjectId.ofText? "aaaa" = none := by decide +kernel
    have hreference : ∀ checkedOut, (keeping checkedOut).referenceNamed? "aaaa" = none := by
      decide +kernel
    have hall : "aaaa".all Text.isHexDigit = true := by cbv
    have honly : ((keeping checkedOut).objects.ids.filter fun id =>
        "aaaa".toLower.toList.isPrefixOf id.hex.toList) = [.uniform 'a'] := by
      show ObjectStore.keeping.ids.filter _ = _
      decide +kernel
    refine commitNamed?_of_commit (by decide +kernel) ?_ ObjectStore.commit_keeping.2
    unfold objectNamed? abbreviated?
    rw [hid, Option.filter_none, hreference, if_pos ⟨by decide, by decide, hall⟩, honly]
  · exact commitNamed?_hex (ObjectId.ofText?_uniform (by decide) (by decide))
      ObjectStore.commit_keeping.2

theorem complete_of_root {repository : Repository} {id : ObjectId} {info : CommitInfo}
    (h : repository.objects.commit id = .ok info) (hroot : info.parents = []) :
    repository.Complete id := by
  intro other hreach
  rw [ObjectStore.eq_of_reaches_root h hroot hreach]
  exact ⟨info, h⟩

/-- Nothing lies between the branch and itself. -/
theorem commitsBetween_keeping :
    (keeping true).commitsBetween (.uniform 'a') (.uniform 'a') = .ok [] := by
  have hcomplete : (keeping true).Complete (.uniform 'a') :=
    complete_of_root ObjectStore.commit_keeping.2 rfl
  rw [commitsBetween_of_complete hcomplete hcomplete, Graph.between_self]

end Repository

namespace Workspace

theorem branch_keeping : (keeping false).names.branch true "dev" = .ok ⟨⟨"dev"⟩⟩ := by
  have hnamed := Repository.commitNamed?_dev false
  have hnul : "dev".contains '\x00' = false := by
    rw [String.contains_char_eq]
    decide
  have href : RefName.ofBranch? "dev" = some "refs/heads/dev" := by decide +kernel
  have hlocal : (keeping false).names.hasLocalBranch "dev" = .ok true := by
    unfold names
    dsimp only
    rw [hnul, if_neg Bool.false_ne_true, href]
    rfl
  refine Names.branch_eq_ok_iff.mpr ⟨⟨(ObjectId.uniform 'a').hex, ?_⟩, fun _ => hlocal, rfl⟩
  show (keeping false).found "dev" = _
  rw [found, show (keeping false).here = .keeping false from rfl, hnamed]

/-- Nothing is new on the branch since a watermark that names its commit once it is checked out. -/
theorem discover_keeping {hash : String} {files : Files} {content : ByteArray}
    (hnamed : (Repository.keeping true).commitNamed? hash = some (.uniform 'a'))
    (hentry : files.find? ["state"] = some (.file content false)) (notes : List Note) :
    ∃ notes', (CommitReports.discover (Watermarks.ofMark ("dev", hash)) true).perform
        { resource := keeping false, files, notes } =
      if Worktree.holds .keeping (.file content false) ⟨.regular, .uniform 'f'⟩ then
        (.ok [], { resource := keeping true, files := files.erase ["state"], notes := notes' })
      else (.error (.unavailable "1 conflict prevents checkout"),
        { resource := keeping false, files, notes := notes' }) := by
  have hbetween := Repository.commitsBetween_keeping
  have hdev := Repository.commitNamed?_dev true
  have hhere : (keeping true).here = .keeping true := rfl
  obtain ⟨said, hcheckout⟩ := checkout_keeping hentry notes
  have hcheckout : (History.checkout "dev" : Action Workspace Unit).perform _ = _ := hcheckout
  have hname : (Watermarks.ofMark ("dev", hash)).branch.name = "dev" := rfl
  have hhash : (Watermarks.ofMark ("dev", hash)).hash = hash := rfl
  unfold CommitReports.discover
  simp only [hname, if_true, Action.perform_bind, hcheckout]
  cases Worktree.holds .keeping (.file content false) ⟨.regular, .uniform 'f'⟩ with
  | false => exact ⟨said, rfl⟩
  | true =>
    simp only [if_true, Commit.newCommitsSince, History.commitsBetween, commitsBetween,
      Action.debug, Action.perform_bind, Action.perform_say, perform_commitNamed, hname, hhash,
      hhere, hnamed, hdev, perform_present, hbetween, List.map_nil, List.mapM_nil,
      Action.perform_pure]
    exact ⟨_, rfl⟩

end Workspace

end CommitReports.Git
