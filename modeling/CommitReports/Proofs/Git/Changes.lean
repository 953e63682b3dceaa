import CommitReports.Proofs.Action.Invariant
import CommitReports.Proofs.Git.Walk

/-!
# What a commit changed

A commit is compared with its first parent, or with nothing if it has no parent
(`Repository.deltasOf`). Both questions on this come to the same list of deltas. What a commit
says of itself finds the parent in the commit (`settled_whatChanged`). A patch is asked for with
the name of the parent, which is the answer to another question (`settled_parent`), and looks both
names up again (`settled_diff`): an id leads to the commit that it names, so nothing is lost on
this way round. The answers say something to those who look for faults, and leave the workspace
as it is.
-/

namespace CommitReports.Git

namespace Repository

variable {repository : Repository} {name : String} {id : ObjectId} {info : CommitInfo}

/-- What lies between the files of the first parent of a commit, or none where it has no parent, and
its own files. -/
def deltasOf (repository : Repository) (commit : ObjectId) (info : CommitInfo) : List Delta :=
  Delta.between ((info.parents.head?.bind repository.snapshot?).getD [])
    ((repository.snapshot? commit).getD [])

/-- A name leads to a commit that can be read, and so can its first parent if it has one. -/
structure Reads (repository : Repository) (name : String) (id : ObjectId) (info : CommitInfo) :
    Prop where
  named : repository.commitNamed? name = some id
  commit : repository.objects.commit id = .ok info
  parent : ∀ first ∈ info.parents.head?, ∃ said, repository.objects.commit first = .ok said

/-- The id of the first parent leads to it. -/
theorem Reads.parentNamed (h : repository.Reads name id info) {first : ObjectId}
    (hfirst : first ∈ info.parents.head?) : repository.commitNamed? first.hex = some first := by
  obtain ⟨said, hsaid⟩ := h.parent first hfirst
  exact commitNamed?_hex
    (ObjectStore.ofText?_of_mem_parents h.commit (List.mem_of_mem_head? hfirst)) hsaid

/-- Every commit that a commit leads to can be read, and so can its files. -/
def Whole (repository : Repository) (commit : ObjectId) : Prop :=
  ∀ id, repository.objects.graph.Reaches commit id →
    (∃ info, repository.objects.commit id = .ok info) ∧
      ∃ files, repository.snapshot? id = some files

/-- A commit is whole if it can be read, its files too, and its parents are whole. -/
theorem Whole.of_parents {files : Snapshot} (hinfo : repository.objects.commit id = .ok info)
    (hfiles : repository.snapshot? id = some files)
    (hparents : ∀ parent ∈ info.parents, repository.Whole parent) : repository.Whole id := by
  intro other hreach
  rcases Relation.ReflTransGen.cases_head hreach with rfl | ⟨parent, hparent, hrest⟩
  · exact ⟨⟨info, hinfo⟩, files, hfiles⟩
  · obtain ⟨said, hsaid, hmem⟩ := ObjectStore.mem_parentsOf_graph.mp hparent
    cases hinfo.symm.trans hsaid
    exact hparents parent hmem other hrest

/-- Of a commit that is kept with all it leads to, what it changed can be told. -/
theorem Whole.deltasOf (h : repository.Whole id) (hname : ObjectId.ofText? name = some id) :
    ∃ info before after, repository.Reads name id info ∧
      repository.snapshot? id = some after ∧
      (info.parents.head? = none → before = []) ∧
      (∀ first ∈ info.parents.head?, repository.snapshot? first = some before) ∧
      repository.deltasOf id info = Delta.between before after := by
  obtain ⟨⟨info, hinfo⟩, after, hafter⟩ := h id (Graph.Reaches.refl _ id)
  have hparent : ∀ first ∈ info.parents.head?,
      (∃ said, repository.objects.commit first = .ok said) ∧
        ∃ files, repository.snapshot? first = some files := fun first hfirst =>
    h first (Graph.Reaches.of_parent
      (ObjectStore.mem_parentsOf_graph.mpr ⟨info, hinfo, List.mem_of_mem_head? hfirst⟩))
  have hreads : repository.Reads name id info :=
    ⟨commitNamed?_id hname hinfo, hinfo, fun first hfirst => (hparent first hfirst).1⟩
  cases hhead : info.parents.head? with
  | none =>
    exact ⟨info, [], after, hreads, hafter, fun _ => rfl, by simp [hhead],
      by simp [Repository.deltasOf, hhead, hafter]⟩
  | some first =>
    obtain ⟨-, before, hbefore⟩ := hparent first hhead
    exact ⟨info, before, after, hreads, hafter, by simp [hhead], by simp [hhead, hbefore],
      by simp [Repository.deltasOf, hhead, hbefore, hafter]⟩

end Repository

namespace Workspace

variable {workspace : Workspace} {site : Site Workspace} {name text : String} {id : ObjectId}
  {info : CommitInfo}

theorem perform_infoOf (commit : ObjectId) (site : Site Workspace) :
    (infoOf commit).perform site =
      match site.resource.here.objects.commit commit with
      | .ok info => (.ok info, site)
      | .error .notCommit =>
        (.error (.unavailable "the requested type does not match the type in the ODB"), site)
      | .error fault => (.error (.unavailable fault.message), site) := by
  simp only [infoOf, Action.perform_bind, perform_present]
  split <;> simp_all

theorem perform_filesOf (commit : ObjectId) (site : Site Workspace) :
    (filesOf commit).perform site =
      (.ok ((site.resource.here.snapshot? commit).getD []), site) := rfl

/-! ## The three answers -/

/-- A commit that can be read says what lies between its first parent and itself. -/
theorem settled_whatChanged (h : workspace.here.Reads name id info) :
    (History.whatChanged name : Action Workspace String).Settled (fun now _ => now = workspace)
      (.ok (info.summary id (workspace.here.deltasOf id info))) := by
  obtain ⟨hname, hinfo, hparent⟩ := h
  rintro site rfl
  simp only [History.whatChanged, whatChanged, Action.debug, Action.perform_bind, Action.perform_say,
    perform_commitNamed, hname, perform_infoOf, hinfo, Repository.deltasOf]
  cases hparents : info.parents with
  | nil => exact ⟨rfl, rfl⟩
  | cons first rest =>
    obtain ⟨said, hsaid⟩ := hparent first (by rw [hparents]; rfl)
    simp only [Action.perform_bind, perform_filesOf, perform_infoOf, hsaid]
    exact ⟨rfl, rfl⟩

/-- The first parent is told by its id. -/
theorem settled_parent (h : workspace.here.Reads name id info) :
    (History.parent name : Action Workspace (Option String)).Settled (fun now _ => now = workspace)
      (.ok (info.parents.head?.map (·.hex))) := by
  rintro site rfl
  simp only [History.parent, parent, Action.debug, Action.perform_bind, Action.perform_say,
    perform_commitNamed, h.named, perform_infoOf, h.commit]
  exact ⟨rfl, rfl⟩

/-- The patch from this id, or from nothing, to the commit is that of what the commit changed. -/
theorem settled_diff (h : workspace.here.Reads name id info) :
    (History.diff (info.parents.head?.map (·.hex)) name : Action Workspace String).Settled
      (fun now _ => now = workspace)
      (.ok (Text.dropFinalNewline
        (patchText workspace.here.objects (workspace.here.deltasOf id info)))) := by
  rintro site rfl
  simp only [History.diff, diff, Action.debug, Action.perform_bind, Action.perform_say,
    Repository.deltasOf]
  cases hhead : info.parents.head? with
  | none =>
    simp only [Option.map_none, Action.perform_pure, Action.perform_bind, perform_commitNamed, h.named,
      perform_filesOf, perform_present]
    exact ⟨rfl, trivial⟩
  | some first =>
    simp only [Option.map_some, Action.perform_bind, perform_commitNamed, h.parentNamed hhead, h.named,
      perform_filesOf, perform_present]
    exact ⟨rfl, rfl⟩

end Workspace

end CommitReports.Git
