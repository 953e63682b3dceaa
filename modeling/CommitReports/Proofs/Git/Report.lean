import CommitReports.Proofs.Git.FollowsHead
import CommitReports.Proofs.Git.Summary
import CommitReports.Proofs.Report.Compose

/-!
# The two halves of a report

A report ends what a commit says of itself with a listing of the paths that it changed, and goes
on with a patch. The two are asked for apart: the listing by the name of the commit alone, the
patch by the name of its first parent as well, which the handle asks for or knows by then. In a
repository where nothing is missing they are two renderings of one list of deltas, from the files
of the first parent, or from none, to those of the commit (`Workspace.compose_halves`), so they
go through the same paths in the same order (`rows_and_sections`): those that are not the same
before and after (`mem_pathsOf_between`). A file that changes its type stands in both twice, as
one that goes and one that comes.
-/

namespace CommitReports.Git

/-! ## Paths -/

/-- The paths of what some deltas stand for, change by change. -/
def pathsOf (deltas : List Delta) : List String := (deltas.flatMap Delta.changes).map Change.path

/-- A line of a listing that ends with a path. -/
def IsRowOf (path row : String) : Prop := ∃ front, row = front ++ "\t" ++ path ++ "\n"

/-- A part of a patch that begins with a path, as it is written there. -/
def IsSectionOf (path part : String) : Prop :=
  ∃ rest, part =
    "diff --git " ++ Patch.pathText ("a/" ++ path) ++ " " ++ Patch.pathText ("b/" ++ path) ++ "\n" ++
      rest

/-- What a delta stands for is about its path. -/
theorem Delta.path_of_mem_changes {delta : Delta} {change : Change} (h : change ∈ delta.changes) :
    change.path = delta.path := by
  unfold changes at h
  split at h
  case h_1 => cases h
  case h_2 => cases List.mem_singleton.mp h; rfl
  case h_3 => cases List.mem_singleton.mp h; rfl
  case h_4 =>
    split at h
    · cases List.mem_singleton.mp h; rfl
    · rcases List.mem_pair.mp h with rfl | rfl <;> rfl

/-- A delta stands for something, unless it is about a file that is neither there before nor
after. -/
theorem Delta.changes_ne_nil {delta : Delta} (h : delta.old ≠ delta.new) : delta.changes ≠ [] := by
  unfold changes
  split
  case h_1 hold hnew => exact absurd (hold.trans hnew.symm) h
  case h_2 => simp
  case h_3 => simp
  case h_4 => split <;> simp

/-- The paths between two snapshots are those that are not the same in both. -/
theorem mem_pathsOf_between {before after : Snapshot} {path : String} :
    path ∈ pathsOf (Delta.between before after) ↔ before.find? path ≠ after.find? path := by
  simp only [pathsOf, List.mem_map, List.mem_flatMap]
  constructor
  · rintro ⟨change, ⟨delta, hdelta, hchange⟩, rfl⟩
    obtain ⟨hold, hnew, hne⟩ := Delta.mem_between_iff.mp hdelta
    rwa [Delta.path_of_mem_changes hchange, ← hold, ← hnew]
  · intro hne
    obtain ⟨delta, hdelta, rfl⟩ := Delta.exists_mem_between hne
    obtain ⟨change, hchange⟩ :=
      List.exists_mem_of_ne_nil _ (Delta.changes_ne_nil (Delta.mem_between_iff.mp hdelta).2.2)
    exact ⟨change, ⟨delta, hdelta, hchange⟩, Delta.path_of_mem_changes hchange⟩

/-- Listing and patch go through the same paths in the same order. -/
theorem rows_and_sections (objects : ObjectStore) (deltas : List Delta) :
    ∃ rows sections, String.join rows = statusText deltas ∧
      String.join sections = patchText objects deltas ∧
      List.Forall₂ IsRowOf (pathsOf deltas) rows ∧
      List.Forall₂ IsSectionOf (pathsOf deltas) sections := by
  refine ⟨_, _, rfl, rfl, ?_, ?_⟩
  · rw [pathsOf, List.forall₂_map_left_iff, List.forall₂_map_right_iff, List.forall₂_same]
    exact fun change _ => ⟨_, rfl⟩
  · rw [pathsOf, List.forall₂_map_left_iff, List.forall₂_map_right_iff, List.forall₂_same]
    exact fun change _ => ⟨_, String.append_assoc⟩

/-! ## The report -/

namespace Workspace

variable {site : Site Workspace} {workspace : Workspace} {commit : Commit} {id : ObjectId}
  {info : CommitInfo}

theorem settled_patchBase (h : workspace.here.Reads commit.hash id info) :
    (Commit.patchBase commit.hash : Action Workspace (Option String)).Settled
      (fun now _ => now = workspace) (.ok (info.parents.head?.map (·.hex))) :=
  (settled_parent h).tryCatch_ok

/-- A handle gives the patch, whether it knows the parent or asks for it. -/
theorem perform_diff_of_reads (h : site.resource.here.Reads commit.hash id info)
    {handle : Commit.Handle} (hcommit : handle.commit = commit)
    (hparent : ∀ known ∈ handle.parent, known = info.parents.head?.map (·.hex)) :
    (Commit.Handle.perform Commit.Handle.diff handle site).1.1 =
      .ok (Text.dropFinalNewline
        (patchText site.resource.here.objects (site.resource.here.deltasOf id info))) := by
  subst hcommit
  -- Known or asked for, the base is the same, and so is the workspace after that.
  obtain ⟨handle', between, hcommit', hbetween, hbase⟩ : ∃ handle' between,
      handle'.commit = handle.commit ∧ between.resource = site.resource ∧
      Commit.Handle.perform Commit.Handle.base handle site =
        ((.ok (info.parents.head?.map (·.hex)), handle'), between) := by
    cases hknown : handle.parent with
    | some known =>
      cases hparent known hknown
      exact ⟨handle, site, rfl, rfl, Commit.Handle.perform_base_of_known hknown⟩
    | none =>
      obtain ⟨handle', hcommit', hbase⟩ :=
        Commit.Handle.perform_base_of_unknown handle hknown site
      obtain ⟨hresult, hkept⟩ := settled_patchBase h site rfl
      rw [hresult] at hbase
      exact ⟨handle', _, hcommit', hkept, hbase⟩
  simp only [Commit.Handle.diff, Commit.Handle.perform_bind, hbase, Commit.Handle.perform_theCommit,
    Commit.Handle.perform_ask, hcommit']
  exact (settled_diff h between hbetween).1

theorem settled_about (mail : Correspondence) (h : workspace.here.Reads commit.hash id info) :
    (Report.about mail commit : Action Workspace Report).Settled (fun now _ => now = workspace)
      (.ok { sender := mail.sender, recipient := mail.recipient, branch := commit.branch.name
             hash := commit.hash
             whatChanged := info.summary id (workspace.here.deltasOf id info)
             diff := Text.dropFinalNewline
               (patchText workspace.here.objects (workspace.here.deltasOf id info)) }) :=
  (settled_whatChanged h).bind_ok <| (settled_patchBase h).bind_ok <| (settled_diff h).bind_ok <|
    .pure _

/-- **Both halves of a report are about the same change**: that from the files of the first parent,
or from none where there is no parent, to the files of the commit. -/
theorem compose_halves (mail : Correspondence) (hname : ObjectId.ofText? commit.hash = some id)
    (hwhole : site.resource.here.Whole id) :
    ∃ (info : CommitInfo) (before after : Snapshot),
      site.resource.here.objects.commit id = .ok info ∧
      site.resource.here.snapshot? id = some after ∧
      (info.parents.head? = none → before = []) ∧
      (∀ first ∈ info.parents.head?, site.resource.here.snapshot? first = some before) ∧
      let deltas := Delta.between before after
      ∃ text patch,
        ((History.whatChanged commit.hash : Action Workspace String).perform site).1 = .ok text ∧
        (∀ handle : Commit.Handle, handle.commit = commit →
          (∀ known ∈ handle.parent, known = info.parents.head?.map (·.hex)) →
          (Commit.Handle.perform Commit.Handle.diff handle site).1.1 = .ok patch) ∧
        (Commit.Handle.perform (Report.compose mail) { commit } site).1.1 =
          .ok { sender := mail.sender, recipient := mail.recipient, branch := commit.branch.name
                hash := commit.hash, whatChanged := text, diff := patch } ∧
        Text.unlines (SummaryParts.ofText text).changes = statusText deltas ∧
        patch = Text.dropFinalNewline (patchText site.resource.here.objects deltas) ∧
        (∀ path, path ∈ pathsOf deltas ↔ before.find? path ≠ after.find? path) ∧
        ∃ rows sections, String.join rows = statusText deltas ∧
          String.join sections = patchText site.resource.here.objects deltas ∧
          List.Forall₂ IsRowOf (pathsOf deltas) rows ∧
          List.Forall₂ IsSectionOf (pathsOf deltas) sections := by
  obtain ⟨info, before, after, hreads, hafter, hroot, hfirst, hdeltas⟩ := hwhole.deltasOf hname
  refine ⟨info, before, after, hreads.commit, hafter, hroot, hfirst, ?_⟩
  intro deltas
  have hlisting : Text.unlines (SummaryParts.ofText (info.summary id deltas)).changes =
      statusText deltas := by
    rw [CommitInfo.ofText_summary hreads.commit (ObjectId.ofText?_hex hname)]
    exact unlines_statusLines deltas
  obtain ⟨handle, -, hcompose⟩ := Commit.Handle.perform_compose mail commit site
  rw [(settled_about mail hreads site rfl).1] at hcompose
  refine ⟨_, _, (settled_whatChanged hreads site rfl).1, fun handle => perform_diff_of_reads hreads,
    by rw [hcompose], ?_, by rw [hdeltas], fun path => mem_pathsOf_between, rows_and_sections _ _⟩
  rw [hdeltas, hlisting]

/-- A commit with a parent, and a handle that has not been asked anything. -/
theorem compose_halves_grown :
    let site := single { objects := .grown }
    let commit : Commit := { hash := (ObjectId.uniform 'b').hex, branch := ⟨⟨"main"⟩⟩ }
    let deltas := Delta.between (.single (.uniform 'e')) (.single (.uniform 'f'))
    ObjectId.ofText? commit.hash = some (.uniform 'b') ∧
    site.resource.here.Whole (.uniform 'b') ∧
    ∃ text patch,
      (Commit.Handle.perform (Report.compose ⟨"a@b", "c@d"⟩) { commit } site).1.1 =
        .ok { sender := "a@b", recipient := "c@d", branch := "main", hash := commit.hash
              whatChanged := text, diff := patch } ∧
      Text.unlines (SummaryParts.ofText text).changes = statusText deltas ∧
      patch = Text.dropFinalNewline (patchText .grown deltas) ∧ "f" ∈ pathsOf deltas := by
  intro site commit deltas
  obtain ⟨hb, ha⟩ := ObjectStore.commit_grown
  obtain ⟨hbefore, hafter⟩ : site.resource.here.snapshot? (.uniform 'a') = some _ ∧
      site.resource.here.snapshot? (.uniform 'b') = some _ := Repository.snapshot?_grown rfl
  have hname : ObjectId.ofText? commit.hash = some (.uniform 'b') :=
    ObjectId.ofText?_uniform (by decide) (by decide)
  have hroot : site.resource.here.Whole (.uniform 'a') := .of_parents ha hbefore nofun
  have hwhole : site.resource.here.Whole (.uniform 'b') :=
    .of_parents hb hafter fun parent hparent => List.mem_singleton.mp hparent ▸ hroot
  obtain ⟨info, before, after, hinfo, hfiles, -, hfirst, text, patch, -, -, hcompose, hlisting,
    hpatch, hpaths, -⟩ := compose_halves ⟨"a@b", "c@d"⟩ hname hwhole
  cases hb.symm.trans hinfo
  cases hafter.symm.trans hfiles
  cases hbefore.symm.trans (hfirst (.uniform 'a') rfl)
  exact ⟨hname, hwhole, text, patch, hcompose, hlisting, hpatch, (hpaths "f").mpr (by decide)⟩

end Workspace

end CommitReports.Git
