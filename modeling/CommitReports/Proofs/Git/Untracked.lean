import CommitReports.Proofs.Action.Simulation
import CommitReports.Proofs.Files.Masked
import CommitReports.Proofs.Git.FollowsHead
import CommitReports.Proofs.Git.Spelling

/-!
# Files that are not tracked

A working tree is brought from one snapshot to another without a look at what files hold
that neither snapshot has (`Worktree.change_masked`). So it follows, or refuses to,
whatever they hold (`Repository.showFiles_alike`).

The snapshots that a run can meet are those of `HEAD` and of the branches that it checks
out (`Repository.MayShow`), however often `HEAD` is moved among them (`Repository.Since`).
A file at a place that none of them has is not tracked. Sites that differ in such a file
alone are twins (`Workspace.Twins`), and stay so over each checkout
(`checkout_simulates`).

In the sample the file is tracked on one of two branches. That branch is left only if the
file holds what the branch has (`Workspace.checkout_keeping`).
-/

namespace CommitReports.Git

/-- A working tree without the contents of the files at hidden places. -/
def Worktree.masked (hidden : Place → Bool) (worktree : Worktree) : Worktree :=
  { worktree with files := worktree.files.masked hidden }

namespace Worktree

variable {hidden : Place → Bool} {worktree : Worktree} {objects : ObjectStore}
  {before after : Snapshot} {path : String}

/-! ## What is to be done -/

@[simp] theorem placeOf_masked (worktree : Worktree) (path : String) :
    (worktree.masked hidden).placeOf path = worktree.placeOf path := rfl

theorem entry?_masked {found : Option Entry} (hfound : worktree.entry? path = found) :
    Worktree.entry? (worktree.masked hidden) path =
      found.map (Entry.masked hidden (worktree.placeOf path)) := by
  rw [← hfound]
  exact worktree.files.find?_masked (worktree.placeOf path)

@[simp] theorem blocker?_masked (worktree : Worktree) (path : String) :
    (worktree.masked hidden).blocker? path = worktree.blocker? path := by
  unfold blocker?
  congr 1
  funext above
  cases hfound : worktree.entry? above with
  | none => rw [entry?_masked hfound]; rfl
  | some entry =>
    rw [entry?_masked hfound]
    simp only [Option.map_some, Entry.isDirectory_masked]

@[simp] theorem filesBelow_masked (worktree : Worktree) (path : String) :
    (worktree.masked hidden).filesBelow path = worktree.filesBelow path := by
  unfold filesBelow
  rw [placeOf_masked, masked, Files.below_masked, List.filterMap_map]
  refine List.filterMap_congr fun x _ => ?_
  obtain ⟨names, entry⟩ := x
  simp only [Function.comp_apply, Entry.isDirectory_masked]

@[simp] theorem canGo_masked (worktree : Worktree) (before : Snapshot) (path : String) :
    (worktree.masked hidden).canGo before path = worktree.canGo before path := by
  unfold canGo
  rw [filesBelow_masked, placeOf_masked, masked, Files.below_masked, List.isEmpty_map]

/-- What is done for a delta has nothing to do with contents at other places. -/
theorem step_masked {delta : Delta} (h : hidden (worktree.placeOf delta.path) = false) :
    (worktree.masked hidden).step objects before delta = worktree.step objects before delta := by
  have hentry : Worktree.entry? (worktree.masked hidden) delta.path = worktree.entry? delta.path := by
    cases hfound : worktree.entry? delta.path with
    | none => exact entry?_masked hfound
    | some entry => rw [entry?_masked hfound, Option.map_some, entry.masked_of_shown h]
  unfold step stepAdded stepDeleted stepModified
  simp only [hentry, blocker?_masked, canGo_masked]

/-! ## What is done -/

theorem prune_masked (root : Place) (fuel : Nat) : ∀ (files : Files) (place : Place),
    prune root (files.masked hidden) fuel place = (prune root files fuel place).masked hidden := by
  induction fuel with
  | zero => exact fun _ _ => rfl
  | succ fuel ih =>
    intro files place
    rw [prune, prune, Files.below_masked, List.isEmpty_map]
    split
    · rfl
    · rw [← Files.masked_erase, ih]

theorem remove_masked (worktree : Worktree) (path : String) :
    (worktree.masked hidden).remove path = (worktree.remove path).masked hidden := by
  unfold remove
  simp only [masked, ← Files.masked_erase, prune_masked]
  rfl

theorem provideAbove_masked (files : Files) (place : Place) :
    provideAbove (files.masked hidden) place = (provideAbove files place).masked hidden := by
  unfold provideAbove
  generalize List.range place.length = lengths
  induction lengths generalizing files with
  | nil => rfl
  | cons n rest ih =>
    have hput : ((files.put (place.take n) .directory).masked hidden) =
        (files.masked hidden).put (place.take n) .directory := by
      rw [Files.masked_put, Entry.masked_directory]
    rw [List.foldl_cons, List.foldl_cons, ← ih, Files.find?_masked]
    rcases files.find? (place.take n) with _ | ⟨content, executable⟩ | ⟨target⟩ | _
    · simp only [Option.map_none, hput]
    · obtain ⟨seen, hseen⟩ := Entry.exists_masked_file hidden (place.take n) content executable
      simp only [Option.map_some, hseen, hput]
    · simp only [Option.map_some, Entry.masked_link, hput]
    · simp only [Option.map_some, Entry.masked_directory]

theorem write_masked (file : TreeFile) (h : hidden (worktree.placeOf path) = false) :
    (worktree.masked hidden).write objects path file =
      (worktree.write objects path file).masked hidden := by
  unfold write
  simp only [masked, provideAbove_masked, Files.masked_put,
    (entryOf objects file).masked_of_shown h]
  rfl

theorem removeAll_masked (worktree : Worktree) (paths : List String) :
    (worktree.masked hidden).removeAll paths = (worktree.removeAll paths).masked hidden := by
  unfold removeAll
  induction paths generalizing worktree with
  | nil => rfl
  | cons path rest ih => rw [List.foldl_cons, List.foldl_cons, remove_masked, ih]

theorem writeAll_masked {snapshot : Snapshot}
    (h : ∀ entry ∈ snapshot, hidden (worktree.placeOf entry.1) = false) :
    (worktree.masked hidden).writeAll objects snapshot =
      (worktree.writeAll objects snapshot).masked hidden := by
  unfold writeAll
  induction snapshot generalizing worktree with
  | nil => rfl
  | cons entry rest ih =>
    obtain ⟨path, file⟩ := entry
    obtain ⟨hentry, hrest⟩ := List.forall_mem_cons.mp h
    have hwrite : (worktree.masked hidden).write objects path file =
        (worktree.write objects path file).masked hidden := write_masked file hentry
    rw [List.foldl_cons, List.foldl_cons]
    dsimp only
    rw [hwrite]
    exact ih hrest

/-- **What files hold that neither snapshot has is not looked at** where a working tree is brought
from the one to the other. -/
theorem change_masked
    (h : ∀ delta ∈ Delta.between before after, hidden (worktree.placeOf delta.path) = false) :
    (worktree.masked hidden).change objects before after =
      (worktree.change objects before after).map (Worktree.masked hidden) := by
  have hsteps : (worktree.masked hidden).steps objects before after =
      worktree.steps objects before after :=
    List.map_congr_left fun delta hdelta => Prod.ext rfl (step_masked (h delta hdelta))
  have hwritten : ∀ entry ∈ written (worktree.steps objects before after),
      hidden (worktree.placeOf entry.1) = false := by
    intro entry hentry
    obtain ⟨delta, hdelta, hstep⟩ := List.mem_map.mp (mem_written_iff.mp hentry)
    rw [← congrArg Prod.fst hstep]
    exact h delta hdelta
  rw [change_eq, change_eq, hsteps]
  split
  next =>
    rw [removeAll_masked, writeAll_masked]
    · rfl
    · intro entry hentry
      rw [placeOf_removeAll]
      exact hwritten entry hentry
  next => rfl

end Worktree

/-! ## What is shown -/

namespace Repository

variable {hidden : Place → Bool} {repository start now : Repository} {files files' : Files}
  {before after : Snapshot} {branches : List String} {root : Place} {name ref : String}
  {id commit : ObjectId} {checkout : Bool} {entry : String × TreeFile}

/-- **A working tree follows, or refuses to, whatever untracked files hold**: those that neither the
files shown before have nor those shown then. -/
theorem showFiles_alike (hfiles : files.Alike hidden files')
    (hbefore : ∀ before, repository.baseline = .ok before →
      ∀ entry ∈ before, hidden (root ++ Snapshot.names entry.1) = false)
    (hafter : ∀ entry ∈ after, hidden (root ++ Snapshot.names entry.1) = false) :
    (∃ reason, repository.showFiles { files, root } after = .error reason ∧
      repository.showFiles { files := files', root } after = .error reason) ∨
    ∃ shown showing showing', repository.showFiles { files, root } after = .ok (shown, showing) ∧
      repository.showFiles { files := files', root } after = .ok (shown, showing') ∧
      showing.files.Alike hidden showing'.files := by
  unfold showFiles
  cases hbaseline : repository.baseline with
  | error reason => exact .inl ⟨reason, rfl, rfl⟩
  | ok before =>
    have hshown : ∀ files, ∀ delta ∈ Delta.between before after,
        hidden (Worktree.placeOf { files, root } delta.path) = false := by
      intro files delta hdelta
      obtain ⟨hold, hnew, hne⟩ := Delta.mem_between_iff.mp hdelta
      cases hfound : before.find? delta.path with
      | some file => exact hbefore before hbaseline _ (Snapshot.mem_of_find? hfound)
      | none =>
        cases hcome : after.find? delta.path with
        | some file => exact hafter _ (Snapshot.mem_of_find? hcome)
        | none => exact absurd (hold.trans (hfound.trans (hnew.trans hcome).symm)) hne
    have hchange : (Worktree.change { files := files', root } repository.objects before after).map
          (Worktree.masked hidden) =
        (Worktree.change { files, root } repository.objects before after).map
          (Worktree.masked hidden) := by
      rw [← Worktree.change_masked (hshown files'), ← Worktree.change_masked (hshown files),
        Worktree.masked, hfiles]
      rfl
    dsimp only
    cases hmade : Worktree.change { files, root } repository.objects before after with
    | error n =>
      cases hmade' : Worktree.change { files := files', root } repository.objects before after with
      | error n' =>
        rw [hmade, hmade'] at hchange
        cases hchange
        exact .inl ⟨_, rfl, rfl⟩
      | ok showing' =>
        rw [hmade, hmade'] at hchange
        cases hchange
    | ok showing =>
      cases hmade' : Worktree.change { files := files', root } repository.objects before after with
      | error n' =>
        rw [hmade, hmade'] at hchange
        cases hchange
      | ok showing' =>
        rw [hmade, hmade'] at hchange
        exact .inr ⟨_, showing, showing', rfl, rfl,
          congrArg Worktree.files (Except.ok.inj hchange)⟩

/-! ## What may be shown -/

/-- A reference that `HEAD` or one of some branches is, or stands for, or leads to through others. -/
inductive OnWay (repository : Repository) (branches : List String) : String → Prop
  | head : OnWay repository branches "HEAD"
  | branch {name ref : String} (hname : name ∈ branches) (href : RefName.ofBranch? name = some ref) :
      OnWay repository branches ref
  | next {ref next : String} (href : OnWay repository branches ref)
      (hnext : repository.ref? ref = some (.reference next)) : OnWay repository branches next

/-- The files may come to be shown if no branches but the given ones are checked out: they are those
of an object that `HEAD` or a branch leads to, or of the commit behind it. -/
def MayShow (repository : Repository) (branches : List String) (snapshot : Snapshot) : Prop :=
  ∃ ref id commit, repository.OnWay branches ref ∧ repository.ref? ref = some (.object id) ∧
    (commit = id ∨ repository.objects.peelTo .commit id = some commit) ∧
    repository.snapshot? commit = some snapshot

/-- The second repository is the first one after some of the branches were checked out, if that is
done at all. -/
structure Since (start : Repository) (checkout : Bool) (branches : List String)
    (now : Repository) : Prop extends UpToHead checkout start now where
  head : now.head = start.head ∨ ∃ ref, start.OnWay branches ref ∧ now.head = .reference ref

namespace Since

/-- The references that are followed are among those that were there to be followed in the first place. -/
theorem of_follow? (h : Since start checkout branches now) {levels : Nat}
    {last : String} (hname : start.OnWay branches name)
    (hfollow : now.follow? levels name = some (last, id)) :
    start.OnWay branches last ∧ start.ref? last = some (.object id) := by
  have hstep : ∀ name target, start.OnWay branches name → now.ref? name = some target →
      start.ref? name = some target ∨ ∃ next, target = .reference next ∧ start.OnWay branches next := by
    intro name target hname href
    by_cases hhead : name = "HEAD"
    · subst hhead
      rcases h.head with hsame | ⟨ref, hway, hset⟩
      · rw [← href]
        exact .inl (congrArg some hsame.symm)
      · refine .inr ⟨ref, Option.some.inj (href.symm.trans (congrArg some hset)), hway⟩
    · rw [← href]
      exact .inl (h.ref? name fun _ => hhead).symm
  -- Where no reference is followed any further, the last one stands for an object.
  have hlast : ∀ name, start.OnWay branches name → now.ref? name = some (.object id) →
      start.OnWay branches name ∧ start.ref? name = some (.object id) := by
    intro name hname href
    rcases hstep name _ hname href with hsame | ⟨next, hnext, -⟩
    · exact ⟨hname, hsame⟩
    · cases hnext
  induction levels generalizing name with
  | zero =>
    rw [Repository.follow?] at hfollow
    split at hfollow
    next => cases hfollow
    next href =>
      cases hfollow
      exact hlast _ hname href
    next => cases hfollow
  | succ levels ih =>
    rw [Repository.follow?] at hfollow
    split at hfollow
    next => cases hfollow
    next href =>
      cases hfollow
      exact hlast _ hname href
    next next href =>
      refine ih ?_ hfollow
      rcases hstep name _ hname href with hsame | ⟨next', hnext, hway⟩
      · exact .next hname hsame
      · cases hnext
        exact hway

/-- The files that the working tree is taken to show are files that may be shown. -/
theorem mayShow_of_baseline (h : Since start checkout branches now)
    (hbaseline : now.baseline = .ok before) (hentry : entry ∈ before) :
    ∃ snapshot, start.MayShow branches snapshot ∧ entry ∈ snapshot := by
  unfold baseline headSnapshot at hbaseline
  split at hbaseline
  next =>
    cases hbaseline
    cases hentry
  next =>
    cases hhead : now.headRef? with
    | none =>
      rw [hhead] at hbaseline
      cases hbaseline
      cases hentry
    | some last =>
      rw [hhead] at hbaseline
      dsimp only at hbaseline
      obtain ⟨⟨last, id⟩, hfollow, rfl⟩ := Option.map_eq_some_iff.mp hhead
      obtain ⟨hway, href⟩ := h.of_follow? .head hfollow
      cases hpeel : now.peelRef last .tree with
      | error reason =>
        rw [hpeel] at hbaseline
        cases hbaseline
      | ok tree =>
        rw [hpeel] at hbaseline
        cases hbaseline
        obtain ⟨id', htarget, -, htree⟩ := peelRef_eq_ok_iff.mp hpeel
        cases (target?_of_ref? (ref?_of_follow? hfollow)).symm.trans htarget
        rw [h.objects] at htree hentry
        obtain ⟨snapshot, hfiles, hmem⟩ := Snapshot.exists_of_mem_getD hentry
        exact ⟨snapshot, ⟨last, id, id, hway, href, .inl rfl,
          Option.bind_eq_some_iff.mpr ⟨tree, htree, hfiles⟩⟩, hmem⟩

/-- The files of a branch that is checked out are files that may be shown. -/
theorem mayShow_of_branch (h : Since start checkout branches now) (hway : start.OnWay branches ref)
    (hpeel : now.peelRef ref .commit = .ok commit)
    (hentry : entry ∈ (now.snapshot? commit).getD []) :
    ∃ snapshot, start.MayShow branches snapshot ∧ entry ∈ snapshot := by
  obtain ⟨id, htarget, -, hcommit⟩ := peelRef_eq_ok_iff.mp hpeel
  obtain ⟨⟨last, id⟩, hfollow, rfl⟩ := Option.map_eq_some_iff.mp htarget
  obtain ⟨hlast, href⟩ := h.of_follow? hway hfollow
  rw [h.objects] at hcommit
  rw [snapshot?_congr h.objects] at hentry
  obtain ⟨snapshot, hfiles, hmem⟩ := Snapshot.exists_of_mem_getD hentry
  exact ⟨snapshot, ⟨last, id, commit, hlast, href, .inr hcommit, hfiles⟩, hmem⟩

/-- A branch was checked out. -/
theorem checkedOut (h : Since start true branches now) (hway : start.OnWay branches ref)
    (index : Option Snapshot) :
    Since start true branches { now with index, head := .reference ref } where
  objects := h.objects
  ref? name hname := by
    rw [← h.ref? name hname, Repository.ref?, Repository.ref?, if_neg (hname rfl),
      if_neg (hname rfl)]
  head := .inr ⟨ref, hway, rfl⟩

end Since

end Repository

/-! ## Checking out beside an untracked file -/

namespace Workspace

variable {start : Workspace} {checkout : Bool} {branches : List String} {place : Place}
  {name : String}

/-- No file stands at the place that may come to be shown. -/
def Untracked (workspace : Workspace) (branches : List String) (place : Place) : Prop :=
  ∀ snapshot, workspace.here.MayShow branches snapshot →
    ∀ entry ∈ snapshot, workspace.root ++ Snapshot.names entry.1 ≠ place

/-- The sites of two runs from one workspace that differ, but for notes, in what the file at one place
holds. -/
structure Twins (start : Workspace) (checkout : Bool) (branches : List String) (place : Place)
    (site site' : Site Workspace) : Prop where
  resource : site'.resource = site.resource
  files : site.files.Alike (· == place) site'.files
  /-- Files may be of any size. -/
  room : site.files.refusals.append = none
  root : site.resource.root = start.root
  since : start.here.Since checkout branches site.resource.here

/-- **Checking out does the same at both sites**, if the file in question is not tracked. -/
theorem checkout_simulates (hname : name ∈ branches) (huntracked : start.Untracked branches place) :
    Action.Simulates (Twins start true branches place) (Workspace.checkout name)
      (Workspace.checkout name) := by
  intro site site' h
  rw [perform_checkout, perform_checkout, h.resource]
  dsimp only
  cases hbranch : site.resource.here.branchRef? name with
  | none => exact ⟨rfl, rfl, h.files, h.room, h.root, h.since⟩
  | some ref =>
    have hway : start.here.OnWay branches ref :=
      .branch hname (Repository.branchRef?_eq_some_iff.mp hbranch).1
    dsimp only
    cases hpeel : site.resource.here.peelRef ref .commit with
    | error reason => exact ⟨rfl, rfl, h.files, h.room, h.root, h.since⟩
    | ok commit =>
      -- Whatever is shown before or after, the file in question is none of it.
      have hplace : ∀ entry : String × TreeFile, (∃ snapshot, start.here.MayShow branches snapshot ∧
          entry ∈ snapshot) → (site.resource.root ++ Snapshot.names entry.1 == place) = false := by
        rintro entry ⟨snapshot, hshow, hentry⟩
        rw [beq_eq_false_iff_ne, h.root]
        exact huntracked snapshot hshow entry hentry
      have hbefore : ∀ before, site.resource.here.baseline = .ok before → ∀ entry ∈ before,
          (site.resource.root ++ Snapshot.names entry.1 == place) = false :=
        fun before hbaseline entry hentry =>
          hplace entry (h.since.mayShow_of_baseline hbaseline hentry)
      have hafter : ∀ entry ∈ (site.resource.here.snapshot? commit).getD [],
          (site.resource.root ++ Snapshot.names entry.1 == place) = false :=
        fun entry hentry => hplace entry (h.since.mayShow_of_branch hway hpeel hentry)
      dsimp only [worktree]
      rcases Repository.showFiles_alike h.files hbefore hafter with
        ⟨reason, hshow, hshow'⟩ | ⟨shown, showing, showing', hshow, hshow', halike⟩
      · rw [hshow, hshow']
        exact ⟨rfl, rfl, h.files, h.room, h.root, h.since⟩
      · rw [hshow, hshow']
        obtain ⟨index, rfl⟩ := showFiles_eq_ok hshow
        have hhere := here_setRepository
          (site.resource.setRepository site.resource.root { site.resource.here with index })
          { site.resource.here with index, head := .reference ref }
        have hroom : showing.files.refusals.append = none := by
          rw [Worktree.refusals_of_showFiles hshow]
          exact h.room
        refine ⟨rfl, rfl, halike, hroom, h.root, ?_⟩
        exact (congrArg (start.here.Since true branches) hhere).mpr (h.since.checkedOut hway index)

end Workspace

/-! ## A file that is tracked on one branch -/

/-- Two commits that have nothing to do with each other: one of no files, and one of a file that
holds a line of a state file. -/
def ObjectStore.keeping : ObjectStore where
  objects :=
    [(.uniform 'b', .commit ((CommitDraft.plain [] "1 +0000").text (.uniform 'd'))),
      (.uniform 'a', .commit ((CommitDraft.plain [] "1 +0000").text (.uniform 'c'))),
      (.uniform 'd', .tree [⟨"state", .regular, .uniform 'f'⟩]),
      (.uniform 'c', .tree []),
      (.uniform 'f', .blob "dev aaaa\n".toUTF8)]

/-- The files of the second commit. -/
def Snapshot.keeping : Snapshot := [("state", ⟨.regular, .uniform 'f'⟩)]

theorem ObjectStore.commit_keeping :
    keeping.commit (.uniform 'b') = .ok (.plain (.uniform 'd') [] 1) ∧
      keeping.commit (.uniform 'a') = .ok (.plain (.uniform 'c') [] 1) := by
  have hids : ∀ id ∈ ['d'].map ObjectId.uniform, ObjectId.ofText? id.hex = some id :=
    ObjectId.ofText?_uniforms (by decide)
  have hids' : ∀ id ∈ ['c'].map ObjectId.uniform, ObjectId.ofText? id.hex = some id :=
    ObjectId.ofText?_uniforms (by decide)
  exact ⟨commit_plain rfl hids Signature.read_plain, commit_plain rfl hids' Signature.read_plain⟩

/-- Each of the commits is on a branch, and one of them is checked out. -/
def Repository.keeping (checkedOut : Bool) : Repository where
  objects := .keeping
  head := .reference (if checkedOut then "refs/heads/dev" else "refs/heads/main")
  index := some (if checkedOut then [] else .keeping)
  refs := [("refs/heads/main", .object (.uniform 'b')), ("refs/heads/dev", .object (.uniform 'a'))]

namespace Repository

theorem snapshot?_keeping (checkedOut : Bool) :
    (keeping checkedOut).snapshot? (.uniform 'b') = some .keeping ∧
      (keeping checkedOut).snapshot? (.uniform 'a') = some [] := by
  obtain ⟨hb, ha⟩ := ObjectStore.commit_keeping
  have hd : Snapshot.flatten .keeping 6 [] (.uniform 'd') = some .keeping := by decide +kernel
  have hc : Snapshot.flatten .keeping 6 [] (.uniform 'c') = some [] := by decide +kernel
  unfold snapshot? keeping
  dsimp only
  rw [ObjectStore.peelTo_tree ha rfl, ObjectStore.peelTo_tree hb rfl]
  simp only [bind, Option.bind_some, CommitInfo.plain, Snapshot.ofTree]
  constructor
  · exact (congrArg (Option.map Snapshot.sorted) hd).trans (congrArg some (List.mergeSort_singleton _))
  · exact (congrArg (Option.map Snapshot.sorted) hc).trans (congrArg some List.mergeSort_nil)

theorem baseline_keeping : (keeping false).baseline = .ok .keeping := by
  have htree : (keeping false).peelRef "refs/heads/main" .tree = .ok (.uniform 'd') :=
    peelRef_eq_ok_iff.mpr ⟨.uniform 'b', rfl, congrArg Option.isSome
      (ObjectStore.peelTo_commit ObjectStore.commit_keeping.1).1,
      ObjectStore.peelTo_tree ObjectStore.commit_keeping.1 rfl⟩
  have hd : Snapshot.flatten .keeping 6 [] (.uniform 'd') = some .keeping := by decide +kernel
  have hfiles : Snapshot.ofTree .keeping (.uniform 'd') = some .keeping :=
    (congrArg (Option.map Snapshot.sorted) hd).trans (congrArg some (List.mergeSort_singleton _))
  show ((keeping false).peelRef "refs/heads/main" .tree).map _ = _
  rw [htree]
  show Except.ok ((Snapshot.ofTree .keeping (.uniform 'd')).getD []) = _
  rw [hfiles]
  rfl

/-- The file of the second commit is removed where that commit is left, unless it was changed. -/
theorem showFiles_keeping {files : Files} {content : ByteArray}
    (hentry : files.find? ["state"] = some (.file content false)) :
    (keeping false).showFiles { files, root := [] } [] =
      if Worktree.holds .keeping (.file content false) ⟨.regular, .uniform 'f'⟩ then
        .ok ({ keeping false with index := some [] }, { files := files.erase ["state"], root := [] })
      else .error "1 conflict prevents checkout" := by
  have hbetween : Delta.between .keeping [] =
      [{ path := "state", old := some ⟨.regular, .uniform 'f'⟩, new := none }] := by cbv
  have hnames : Snapshot.names "state" = ["state"] := by decide
  have hsteps : Worktree.steps { files, root := [] } .keeping .keeping [] = [("state",
      if Worktree.holds .keeping (.file content false) ⟨.regular, .uniform 'f'⟩ then .remove
      else .conflict "state")] := by
    unfold Worktree.steps
    rw [hbetween]
    simp only [List.map_cons, List.map_nil, Worktree.step, Worktree.stepDeleted, Worktree.entry?,
      Worktree.placeOf, hnames, List.nil_append, hentry]
  have hremoved : Worktree.remove { files, root := [] } "state" =
      { files := files.erase ["state"], root := [] } := by
    simp only [Worktree.remove, Worktree.placeOf, hnames]
    rfl
  have hindex : indexAfter ((keeping false).index.getD []) .keeping [] = [] := by
    unfold indexAfter
    rw [hbetween]
    rfl
  unfold showFiles
  rw [baseline_keeping]
  dsimp only
  rw [hindex, Worktree.change_eq, show (keeping false).objects = .keeping from rfl, hsteps]
  cases Worktree.holds .keeping (.file content false) ⟨.regular, .uniform 'f'⟩ with
  | false => rfl
  | true =>
    have hsorted : Snapshot.sorted [] = [] := List.mergeSort_nil
    simp only [if_true, hsorted, ← hremoved]
    rfl

end Repository

namespace Workspace

/-- The workspace of the repository. -/
def keeping (checkedOut : Bool) : Workspace where
  repositories := [([], .keeping checkedOut)]

theorem checkout_keeping {files : Files} {content : ByteArray}
    (hentry : files.find? ["state"] = some (.file content false)) (notes : List Note) :
    ∃ notes', (checkout "dev").perform { resource := keeping false, files, notes } =
      if Worktree.holds .keeping (.file content false) ⟨.regular, .uniform 'f'⟩ then
        (.ok (), { resource := keeping true, files := files.erase ["state"], notes := notes' })
      else (.error (.unavailable "1 conflict prevents checkout"),
        { resource := keeping false, files, notes := notes' }) := by
  obtain ⟨hkind, hpeel⟩ := ObjectStore.peelTo_commit ObjectStore.commit_keeping.2
  have hbranch : (keeping false).here.branchRef? "dev" = some "refs/heads/dev" := by decide +kernel
  have hcommit : (keeping false).here.peelRef "refs/heads/dev" .commit = .ok (.uniform 'a') :=
    Repository.peelRef_eq_ok_iff.mpr ⟨.uniform 'a', rfl, congrArg Option.isSome hkind, hpeel⟩
  have hafter : (keeping false).here.snapshot? (.uniform 'a') = some [] :=
    (Repository.snapshot?_keeping false).2
  have hshow : (keeping false).here.showFiles ((keeping false).worktree files) [] = _ :=
    Repository.showFiles_keeping hentry
  refine ⟨notes ++ [.record .debug "git checkout dev"], ?_⟩
  rw [perform_checkout]
  dsimp only
  rw [hbranch]
  dsimp only
  rw [hcommit]
  dsimp only
  rw [hafter, Option.getD_some, hshow]
  cases Worktree.holds .keeping (.file content false) ⟨.regular, .uniform 'f'⟩ with
  | false => rfl
  | true => rfl

/-- No other file than that of the second commit is tracked. -/
theorem untracked_keeping {place : Place} (hplace : place ≠ ["state"]) :
    (keeping false).Untracked ["dev"] place := by
  have hnames : Snapshot.names "state" = ["state"] := by decide
  have hkinds : ObjectStore.keeping.kind? (.uniform 'b') ≠ some .tag ∧
      ObjectStore.keeping.kind? (.uniform 'a') ≠ some .tag := by
    obtain ⟨hb, ha⟩ := ObjectStore.commit_keeping
    rw [(ObjectStore.peelTo_commit hb).1, (ObjectStore.peelTo_commit ha).1]
    exact ⟨nofun, nofun⟩
  obtain ⟨hb, ha⟩ := Repository.snapshot?_keeping false
  intro snapshot hshow entry hentry
  obtain ⟨ref, id, commit, -, href, hcommit, hfiles⟩ := hshow
  have hid : id = .uniform 'b' ∨ id = .uniform 'a' := by
    unfold Repository.ref? at href
    split at href
    · cases href
    · obtain ⟨before, after, hsplit, -⟩ := List.lookup_eq_some_iff.mp href
      have hmem : (ref, RefTarget.object id) ∈ (Repository.keeping false).refs := by
        show _ ∈ (keeping false).here.refs
        rw [hsplit]
        simp
      simp only [Repository.keeping, List.mem_cons, Prod.mk.injEq, RefTarget.object.injEq,
        List.not_mem_nil, or_false] at hmem
      exact hmem.imp And.right And.right
  have hsame : commit = id := by
    rcases hcommit with hsame | hpeel
    · exact hsame
    · refine ObjectStore.eq_of_peelTo_commit ?_ hpeel
      rcases hid with rfl | rfl
      · exact hkinds.1
      · exact hkinds.2
  subst hsame
  rcases hid with rfl | rfl
  · cases hb.symm.trans hfiles
    obtain rfl := List.mem_singleton.mp hentry
    rw [hnames]
    exact hplace.symm
  · cases ha.symm.trans hfiles
    cases hentry

end Workspace

end CommitReports.Git
