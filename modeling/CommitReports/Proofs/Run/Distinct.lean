import CommitReports.Proofs.Run.Questions
import CommitReports.Proofs.Run.Success

/-!
# Each commit of a branch once

A run takes the lines of the state file one by one, whatever their branches are. If these
are different, no commit is reported twice on a branch, and the state file that is written
has a line for each branch (`run_distinct`). But a branch may stand on two lines: both are
kept, and what has come to it is reported for each of them (`reported_twice`).
-/

namespace CommitReports

/-! ## Lines of different branches -/

/-- Reports on lines of different branches are on different commits or on different branches. -/
theorem nodup_of_lines {lines : List Progress} (hbranches : (lines.map (·.branch)).Nodup)
    (hlines : ∀ p ∈ lines, (∀ r ∈ p.reports, r.branch = p.branch) ∧ (p.reports.map (·.hash)).Nodup) :
    ((lines.flatMap (·.reports)).map fun r => (r.branch, r.hash)).Nodup := by
  rw [List.map_flatMap, List.nodup_flatMap]
  constructor
  · intro p hp
    have hhashes : ((p.reports.map fun r => (r.branch, r.hash)).map (·.2)).Nodup := by
      rw [List.map_map]
      exact (hlines p hp).2
    exact hhashes.of_map
  · refine (List.pairwise_map.mp hbranches).imp_of_mem fun {p q} hp hq hne => ?_
    rw [Function.onFun, List.disjoint_left]
    intro pair hpair hpair'
    obtain ⟨r, hr, rfl⟩ := List.mem_map.mp hpair
    obtain ⟨r', hr', heq⟩ := List.mem_map.mp hpair'
    have hsame : r'.branch = r.branch := (Prod.mk.inj heq).1
    rw [(hlines p hp).1 r hr, (hlines q hq).1 r' hr'] at hsame
    exact hne hsame.symm

namespace Answers

variable {answers : Answers} {mail : Correspondence}

/-- The progress of a line is on its branch, and reports what is listed. -/
theorem progress_eq_ok {branch previous : String} {p : Progress}
    (h : answers.progress mail branch previous = .ok p) :
    p.branch = branch ∧ (∀ r ∈ p.reports, r.branch = branch) ∧
      ∃ listed, answers.commitsBetween previous branch = .ok listed ∧
        p.reports.map (·.hash) = listed.reverse := by
  obtain ⟨listed, hlisted, h⟩ := bind_eq_ok.mp h
  obtain ⟨reports, hreports, h⟩ := bind_eq_ok.mp h
  cases h
  have hpairs := mapM_report_eq_ok hreports
  refine ⟨rfl, fun r hr => ?_, listed, hlisted, ?_⟩
  · obtain ⟨hash, -, heq⟩ := List.mem_map.mp (hpairs ▸ List.mem_map_of_mem hr)
    exact (Prod.mk.inj heq).1.symm
  · simpa [Function.comp_def] using congrArg (List.map (·.2)) hpairs

/-- If no commit is listed twice, none is reported twice on lines of different branches, and the
branches stay. -/
theorem nodup_of_progress (hlisted : ∀ since upto listed,
      answers.commitsBetween since upto = .ok listed → listed.Nodup)
    {marks : List (String × String)} {lines : List Progress}
    (hlines : marks.mapM (fun m => answers.progress mail m.1 m.2) = .ok lines) :
    lines.map (·.branch) = marks.map (·.1) ∧ ((marks.map (·.1)).Nodup →
      ((lines.flatMap (·.reports)).map fun r => (r.branch, r.hash)).Nodup) := by
  have hall := forall₂_of_mapM_eq_ok hlines
  have heach : lines.map (·.branch) = marks.map (·.1) ∧ ∀ p ∈ lines,
      (∀ r ∈ p.reports, r.branch = p.branch) ∧ (p.reports.map (·.hash)).Nodup := by
    clear hlines
    induction hall with
    | nil => exact ⟨rfl, nofun⟩
    | cons hp _ ih =>
      obtain ⟨hbranch, hreports, listed, hcommits, hhashes⟩ := progress_eq_ok hp
      refine ⟨by rw [List.map_cons, List.map_cons, hbranch, ih.1],
        List.forall_mem_cons.mpr ⟨⟨hbranch ▸ hreports, ?_⟩, ih.2⟩⟩
      rw [hhashes]
      exact List.nodup_reverse.mpr (hlisted _ _ _ hcommits)
  exact ⟨heach.1, fun hbranches => nodup_of_lines (heach.1 ▸ hbranches) heach.2⟩

end Answers

/-- A history in which each commit is recorded once lists no commit twice. -/
theorem Recorded.nodup_commitsBetween {h : Recorded} (horder : h.order.Nodup) {since upto : String}
    {listed : List String} (hlisted : h.answers.commitsBetween since upto = .ok listed) :
    listed.Nodup := by
  obtain ⟨hidden, -, hlisted⟩ := Answers.bind_eq_ok.mp hlisted
  obtain ⟨tip, -, hlisted⟩ := Answers.bind_eq_ok.mp hlisted
  cases hlisted
  exact (List.nodup_reverse.mpr horder).filter _

/-! ## The whole run -/

/-- **A successful run reports each commit of a branch once**, and writes one line for each branch,
if the lines of the state file are on different branches. -/
theorem run_distinct {settings : Settings} {options : RunOptions} {text : String}
    {site after : Site (Recorded × Mailbox)} {summary : Summary}
    (horder : site.resource.1.order.Nodup)
    (hread : site.files.readText settings.stateFile = .ok text)
    (hbranches : ((Watermarks.marksOf text).map (·.1)).Nodup)
    (hrun : (run settings options).perform site = (.ok summary, after)) :
    ∃ reports : List Report,
      after.resource.2.commits = site.resource.2.commits ++ reports.map (·.hash) ∧
      after.resource.2.messages = site.resource.2.messages ++ reports.map (·.render) ∧
      (reports.map fun r => (r.branch, r.hash)).Nodup ∧
      (options.dryRun = true → after.files = site.files) ∧
      (options.dryRun = false → ∃ lines : List (String × String),
        after.files.readText settings.stateFile =
          .ok (Text.unlines (lines.map fun line => line.1 ++ " " ++ line.2)) ∧
        (lines.map (·.1)).Nodup) := by
  have hold := Recorded.hold site.resource.1 site.files
  cases hdry : options.dryRun with
  | true =>
    -- A dry run hands nothing over and writes nothing.
    have hkeeps : (run settings options : Action (Recorded × Mailbox) Summary).Keeps fun r d =>
        site.resource.1.Unchanged site.files r.1 d ∧ r.2 = site.resource.2 :=
      dryRun_keeps (fun _ q hq _ hsite => ⟨hold.keeps q hq _ hsite.1, hsite.2⟩) hdry
    have hkept := hkeeps site ⟨⟨.refl _, rfl⟩, rfl⟩
    rw [hrun] at hkept
    obtain ⟨⟨-, hfiles⟩, hbox⟩ := hkept
    have hcommits : after.resource.2 = site.resource.2 := hbox
    exact ⟨[], by simp [hcommits], by simp [hcommits], List.nodup_nil, fun _ => hfiles, nofun⟩
  | false =>
    have htext : ∀ r d, site.resource.1.Unchanged site.files r d →
        d.readText settings.stateFile = .ok text := by
      rintro _ _ ⟨-, rfl⟩
      exact hread
    obtain ⟨-, -, lines, hlines, haccomplished⟩ := hold.run htext hdry ⟨.refl _, rfl⟩ hrun
    obtain ⟨hmarks, hnodup⟩ := Answers.nodup_of_progress
      (fun _ _ _ => Recorded.nodup_commitsBetween horder) hlines
    refine ⟨lines.flatMap (·.reports), haccomplished.took.commits, haccomplished.took.messages,
      hnodup hbranches, nofun, fun _ => ⟨lines.map fun p => (p.branch, p.current), ?_, ?_⟩⟩
    · rw [haccomplished.saved, List.map_map]
      rfl
    · rw [List.map_map]
      exact hmarks ▸ hbranches

/-- The small history with one line for its branch. -/
theorem run_distinct_sample :
    let site : Site (Recorded × Mailbox) := { resource := (.sample, { name := "box" }), files := .sample }
    ∃ summary after, ∃ reports : List Report, (run .sample {}).perform site = (.ok summary, after) ∧
      after.resource.2.commits = reports.map (·.hash) ∧
      after.resource.2.messages = reports.map (·.render) ∧
      (reports.map fun r => (r.branch, r.hash)).Nodup ∧
      ∃ lines : List (String × String),
        after.files.readText "/state" =
          .ok (Text.unlines (lines.map fun line => line.1 ++ " " ++ line.2)) ∧
        (lines.map (·.1)).Nodup := by
  intro site
  have hrun : (run .sample {}).perform site =
      (.ok { branches := [{ branch := "m", previous := "a", current := "c", reported := 2 }]
             persisted := true }, ((run .sample {}).perform site).2) := Prod.ext (by cbv) rfl
  obtain ⟨reports, hcommits, hmessages, hnodup, -, hsaved⟩ :=
    run_distinct (by decide) Files.readText_sample (by decide +kernel) hrun
  exact ⟨_, _, reports, hrun, hcommits, hmessages, hnodup, hsaved rfl⟩

/-- With two lines for its branch, its new commits are reported twice, and both lines are kept. -/
theorem reported_twice :
    let site : Site (Recorded × Mailbox) :=
      { resource := (.sample, { name := "box" }), files := .holding "m a\nm a\n" }
    ∃ summary after, ∃ reports : List String, (run .sample {}).perform site = (.ok summary, after) ∧
      after.resource.2.commits = ["b", "c"] ++ ["b", "c"] ∧
      after.resource.2.messages = reports ++ reports ∧
      after.files.readText "/state" = .ok "m c\nm c\n" := by
  intro site
  have hrun : (run .sample {}).perform site =
      (.ok { branches := List.replicate 2
               { branch := "m", previous := "a", current := "c", reported := 2 }
             persisted := true }, ((run .sample {}).perform site).2) := Prod.ext (by cbv) rfl
  refine ⟨_, _, ((run .sample {}).perform site).2.resource.2.messages.take 2, hrun, ?_, ?_, ?_⟩
  · cbv
  · cbv
  · cbv

end CommitReports
