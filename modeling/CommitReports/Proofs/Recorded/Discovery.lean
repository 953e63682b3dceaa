import CommitReports.Proofs.Recorded.Consistent

/-!
# Discovery in a recorded history

In a consistent history discovery does not fail: the branch can be checked out, its
name and that of the watermark resolve, and so does each hash that is listed
(`Consistent.discovered_eq`). What is discovered is what the tip reaches and the
watermark does not, each commit once and after its ancestors, so that the tip is the
last one (`discover_spec`).
-/

namespace CommitReports.Recorded

variable {h : Recorded} {watermark : Commit} {tip : String}

/-- Discovery finds what lies between the watermark and the tip, oldest first. -/
theorem Consistent.discovered_eq (hc : h.Consistent)
    (htip : h.branches.lookup watermark.branch.name = some tip) (hhash : watermark.hash ∈ h.order)
    (checkout : Bool) :
    h.answers.discovered watermark checkout =
      .ok ((h.between watermark.hash tip).reverse.map fun hash =>
        { hash, branch := watermark.branch }) := by
  have hbranch : h.found watermark.branch.name = .ok tip := found_eq_ok_iff.mpr (.inl htip)
  have hlisted : h.answers.commitsBetween watermark.hash watermark.branch.name =
      .ok (h.between watermark.hash tip) := by
    simp only [answers, hc.found_hash hhash, hbranch]
    rfl
  have hnewest : h.answers.newest watermark =
      .ok ((h.between watermark.hash tip).map fun hash => { hash, branch := watermark.branch }) := by
    unfold Answers.newest
    rw [hlisted]
    refine Answers.mapM_eq_ok fun hash hmem => ?_
    rw [show h.answers.resolve hash = .ok hash from hc.found_hash (mem_between.mp hmem).1]
    rfl
  have hcheckout : h.answers.checkout watermark.branch.name = .ok () := by
    simp [answers, htip]
  unfold Answers.discovered
  rw [hnewest, List.map_reverse]
  cases checkout with
  | false => rfl
  | true =>
    rw [hcheckout]
    rfl

/-- **Discovery finds exactly what is new on a branch**: each commit that the tip reaches and the
watermark does not, once and after all of its ancestors. -/
theorem discover_spec {site : Site Recorded} (checkout : Bool) (hc : site.resource.Consistent)
    (htip : site.resource.branches.lookup watermark.branch.name = some tip)
    (hhash : watermark.hash ∈ site.resource.order) :
    ∃ commits, ((discover watermark checkout).perform site).1 = .ok commits ∧
      (∀ commit ∈ commits, commit.branch = watermark.branch) ∧
      (commits.map (·.hash)).Nodup ∧
      (∀ hash, hash ∈ commits.map (·.hash) ↔ hash ∈ site.resource.order ∧
        site.resource.parents.Reaches tip hash ∧
        ¬site.resource.parents.Reaches watermark.hash hash) ∧
      (commits.map (·.hash)).Pairwise (fun older newer =>
        ¬site.resource.parents.Reaches older newer) ∧
      (commits ≠ [] → commits.getLast? = some { hash := tip, branch := watermark.branch }) ∧
      (commits = [] ↔ site.resource.parents.Reaches watermark.hash tip) := by
  have hrecorded : tip ∈ site.resource.order := hc.tip _ _ htip
  have hfound := ((hold site.resource site.files).discovered watermark checkout site
    ⟨.refl _, rfl⟩).1
  rw [hc.discovered_eq htip hhash checkout] at hfound
  have hhashes : ((site.resource.between watermark.hash tip).reverse.map fun hash =>
      ({ hash, branch := watermark.branch } : Commit)).map (·.hash) =
      (site.resource.between watermark.hash tip).reverse := by
    rw [List.map_map]
    exact List.map_id _
  refine ⟨_, hfound, ?_, ?_, fun hash => ?_, ?_, fun hne => ?_, ?_⟩
  · simp
  · rw [hhashes]
    exact List.nodup_reverse.mpr (hc.nodup_between _ _)
  · rw [hhashes, List.mem_reverse]
    exact mem_between
  · rw [hhashes, List.pairwise_reverse]
    exact hc.pairwise_between _ _
  · have hlisted : site.resource.between watermark.hash tip ≠ [] := by
      simpa using hne
    rw [List.getLast?_map, List.getLast?_reverse, hc.head?_between hrecorded hlisted]
    rfl
  · rw [List.map_eq_nil_iff, List.reverse_eq_nil_iff]
    exact between_eq_nil_iff hrecorded

/-- The sides of a crossed history that a watermark on the other side lacks. -/
theorem discover_crossed :
    let watermark : Commit := { hash := "b", branch := ⟨⟨"m"⟩⟩ }
    let site : Site Recorded := { resource := crossed, files := .empty [] }
    site.resource.Consistent ∧ site.resource.branches.lookup watermark.branch.name = some "f" ∧
    watermark.hash ∈ site.resource.order ∧
    ∃ commits, ((discover watermark true).perform site).1 = .ok commits ∧
      (∀ commit ∈ commits, commit.branch = watermark.branch) ∧
      (commits.map (·.hash)).Nodup ∧
      (∀ hash, hash ∈ commits.map (·.hash) ↔ hash ∈ site.resource.order ∧
        site.resource.parents.Reaches "f" hash ∧
        ¬site.resource.parents.Reaches watermark.hash hash) ∧
      (commits.map (·.hash)).Pairwise (fun older newer =>
        ¬site.resource.parents.Reaches older newer) ∧
      (commits ≠ [] → commits.getLast? = some { hash := "f", branch := watermark.branch }) ∧
      (commits = [] ↔ site.resource.parents.Reaches watermark.hash "f") := by
  intro watermark site
  have htip : site.resource.branches.lookup watermark.branch.name = some "f" := rfl
  have hhash : watermark.hash ∈ site.resource.order := by decide
  exact ⟨consistent_crossed, htip, hhash, discover_spec true consistent_crossed htip hhash⟩

end CommitReports.Recorded
