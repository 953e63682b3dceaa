import CommitReports.Proofs.Chronicle.Basic
import CommitReports.Proofs.Report.Render
import CommitReports.Proofs.Run.Distinct

/-!
# Nothing is reported twice

As long as branches only move forward, what a line has reported stays behind it:
every settled pair of a branch and a commit is reached both by the line's
watermark and by the tip of the branch (`Settled`). A run that succeeds reports
only what the watermark does not reach, so no settled pair again, and takes the
watermark to the tip, behind which all settled pairs are. With different branches
on different lines, the settled pairs are pairwise different (`reported_once`).
-/

namespace CommitReports.Chronicle

variable {settings : Settings} {s : Chronicle} {marks : List (String × String)}

/-- Branches only move forward; a new one may start anywhere. -/
def Forward (s : Chronicle) : Occurrence → Prop
  | .point branch tip =>
    ∀ old, s.history.branches.lookup branch = some old → s.history.parents.Reaches tip old
  | _ => True

/-- The branches and commits of the reports on some lines, in order. -/
def pairsOf (lines : List Progress) : List (String × String) :=
  (lines.flatMap (·.reports)).map fun r => (r.branch, r.hash)

/-- What is settled are the reports on different pairs of a branch and a commit. The line of the
branch has left the commit behind, and so has the branch. -/
structure Settled (settings : Settings) (s : Chronicle) (marks pairs : List (String × String)) :
    Prop where
  nodup : pairs.Nodup
  settled : s.settled =
    pairs.map fun q => (q.2, (s.history.reportOn settings.correspondence q.1 q.2).render)
  behind : ∀ q ∈ pairs, ∃ w, (q.1, w) ∈ marks ∧ s.history.parents.Reaches w q.2
  reached : ∀ q ∈ pairs, ∃ tip, s.history.found q.1 = .ok tip ∧ s.history.parents.Reaches tip q.2

/-! ## Branches -/

/-- A name goes on standing for a commit that reaches the one that it stood for. -/
theorem found_take (htracks : s.Tracks settings marks) {o : Occurrence} (hforward : s.Forward o)
    (hkept : (s.take settings o).history.WellKept) {name tip : String}
    (hfound : s.history.found name = .ok tip) :
    ∃ tip', (s.take settings o).history.found name = .ok tip' ∧
      (s.take settings o).history.parents.Reaches tip' tip := by
  cases o with
  | record hash parents =>
    refine ⟨tip, Recorded.found_eq_ok_iff.mpr ?_, .refl _ _⟩
    rcases Recorded.found_eq_ok_iff.mp hfound with hbranch | ⟨hnone, hnode, htip⟩
    · exact .inl hbranch
    · exact .inr ⟨hnone, List.mem_cons_of_mem _ hnode, htip⟩
  | point branch target =>
    by_cases heq : name = branch
    · subst heq
      have hnow : (s.history.branch name target).branches.lookup name = some target := by
        simp [Recorded.branch]
      refine ⟨target, Recorded.found_eq_ok_iff.mpr (.inl hnow), ?_⟩
      rcases Recorded.found_eq_ok_iff.mp hfound with hbranch | ⟨-, hnode, -⟩
      · exact hforward tip hbranch
      · -- Until now the name stood for a recorded hash: no branch may be given it.
        exact absurd (htracks.kept.consistent.mem_nodes.mp hnode) (hkept.apart name target hnow)
    · have hother : (s.history.branch branch target).branches.lookup name =
          s.history.branches.lookup name := by
        have hne : (name == branch) = false := by simpa using heq
        simp [Recorded.branch, List.lookup_cons, hne]
      refine ⟨tip, ?_, .refl _ _⟩
      show (s.history.branch branch target).found name = .ok tip
      rw [Recorded.found_eq_ok_iff, hother]
      exact Recorded.found_eq_ok_iff.mp hfound
  | run c =>
    refine ⟨tip, ?_, .refl _ _⟩
    rw [Recorded.found, (sameRecords_run htracks c).lookup?]
    exact hfound

/-! ## The reports of a run -/

/-- The pairs that a run settles are on the lines' branches, and were not reached by their
watermarks, but are by the tips that they have gone on to. -/
theorem mem_pairsOf {h : Recorded} {mail : Correspondence} {lines : List Progress}
    (hw : h.WellKept) (hlines : List.Forall₂ (h.ProgressOn mail) marks lines) {q : String × String}
    (hq : q ∈ pairsOf lines) :
    ∃ m ∈ marks, q.1 = m.1 ∧ ¬h.parents.Reaches m.2 q.2 ∧
      ∃ p ∈ lines, p.branch = m.1 ∧ h.found m.1 = .ok p.current ∧
        h.parents.Reaches p.current q.2 := by
  obtain ⟨r, hr, rfl⟩ := List.mem_map.mp hq
  obtain ⟨p, hp, hr⟩ := List.mem_flatMap.mp hr
  obtain ⟨m, hm, hprogress⟩ := Recorded.ProgressOn.exists_mark hlines p hp
  obtain ⟨tip, -, htip, -⟩ := id hprogress
  obtain ⟨hashes, hreports, -, hhashes⟩ := hprogress.reports_eq hw htip
  rw [hreports] at hr
  obtain ⟨x, hx, rfl⟩ := List.mem_map.mp hr
  obtain ⟨hreach, hnew⟩ := (hhashes x).mp hx
  -- Something is reported, so the line has gone on to the tip.
  have hcurrent : p.current = tip := by
    rcases hprogress.current_cases hw htip with heq | ⟨hnone, -⟩
    · exact heq
    · rw [hreports] at hnone
      rw [List.map_eq_nil_iff.mp hnone] at hx
      cases hx
  refine ⟨m, hm, rfl, hnew, p, hp, hprogress.branch, ?_, ?_⟩
  · rw [hcurrent, htip]
  · rw [hcurrent]
    exact hreach

/-- A run settles no pair twice, if the lines have different branches. -/
theorem nodup_pairsOf {h : Recorded} {mail : Correspondence} {lines : List Progress}
    (hw : h.WellKept) (hlines : List.Forall₂ (h.ProgressOn mail) marks lines)
    (hbranches : (marks.map (·.1)).Nodup) : (pairsOf lines).Nodup := by
  rw [← Recorded.ProgressOn.map_branch hlines] at hbranches
  refine nodup_of_lines hbranches fun p hp => ?_
  obtain ⟨m, -, hprogress⟩ := Recorded.ProgressOn.exists_mark hlines p hp
  obtain ⟨tip, -, htip, -⟩ := id hprogress
  obtain ⟨hashes, hreports, hnodup, -⟩ := hprogress.reports_eq hw htip
  rw [hreports, hprogress.branch, List.map_map]
  refine ⟨fun r hr => ?_, hnodup.map fun _ _ h => h⟩
  obtain ⟨x, -, rfl⟩ := List.mem_map.mp hr
  rfl

/-- The settled reports of a run are those on its pairs. -/
theorem map_pairsOf {h : Recorded} {mail : Correspondence} {lines : List Progress}
    (hlines : List.Forall₂ (h.ProgressOn mail) marks lines) :
    (pairsOf lines).map (fun q => (q.2, (h.reportOn mail q.1 q.2).render)) =
      (lines.flatMap (·.reports)).map fun r => (r.hash, r.render) := by
  rw [pairsOf, List.map_map]
  refine List.map_congr_left fun r hr => ?_
  obtain ⟨p, hp, hr⟩ := List.mem_flatMap.mp hr
  obtain ⟨m, -, _, -, -, rfl⟩ := Recorded.ProgressOn.exists_mark hlines p hp
  obtain ⟨x, -, rfl⟩ := List.mem_map.mp hr
  rfl

/-! ## What stays true -/

namespace Settled

variable {pairs : List (String × String)} {o : Occurrence}

/-- Settled commits are recorded. -/
theorem mem_order (hsettled : s.Settled settings marks pairs) (htracks : s.Tracks settings marks) :
    ∀ q ∈ pairs, q.2 ∈ s.history.order := by
  intro q hq
  obtain ⟨w, hw, hreach⟩ := hsettled.behind q hq
  exact htracks.kept.consistent.mem_order (htracks.recorded _ hw) hreach

theorem settled_take (hsettled : s.Settled settings marks pairs)
    (htracks : s.Tracks settings marks)
    (hextends : s.history.Extends (s.take settings o).history) :
    s.settled = pairs.map fun q =>
      (q.2, ((s.take settings o).history.reportOn settings.correspondence q.1 q.2).render) := by
  rw [hsettled.settled]
  refine List.map_congr_left fun q hq => ?_
  rw [hextends.reportOn q.2 (hsettled.mem_order htracks q hq)]

theorem reached_take (hsettled : s.Settled settings marks pairs)
    (htracks : s.Tracks settings marks) (hforward : s.Forward o)
    (hkept : (s.take settings o).history.WellKept)
    (hextends : s.history.Extends (s.take settings o).history) :
    ∀ q ∈ pairs, ∃ tip, (s.take settings o).history.found q.1 = .ok tip ∧
      (s.take settings o).history.parents.Reaches tip q.2 := by
  intro q hq
  obtain ⟨tip, hfound, hreach⟩ := hsettled.reached q hq
  obtain ⟨tip', hfound', hforth⟩ := found_take htracks hforward hkept hfound
  have htip := htracks.kept.consistent.mem_of_found hfound
  exact ⟨tip', hfound', hforth.trans ((hextends.reaches tip htip q.2).mpr hreach)⟩

/-- An occurrence that settles nothing. -/
theorem take_unsaved (hsettled : s.Settled settings marks pairs)
    (htracks : s.Tracks settings marks) (hforward : s.Forward o)
    (hkept : (s.take settings o).history.WellKept)
    (hextends : s.history.Extends (s.take settings o).history)
    (hsame : (s.take settings o).settled = s.settled) :
    (s.take settings o).Settled settings marks pairs where
  nodup := hsettled.nodup
  settled := hsame.trans (hsettled.settled_take htracks hextends)
  behind q hq := by
    obtain ⟨w, hw, hreach⟩ := hsettled.behind q hq
    exact ⟨w, hw, (hextends.reaches w (htracks.recorded _ hw) q.2).mpr hreach⟩
  reached := hsettled.reached_take htracks hforward hkept hextends

/-- A run that settles its reports. -/
theorem take_saved (hsettled : s.Settled settings marks pairs)
    (htracks : s.Tracks settings marks) (hbranches : (marks.map (·.1)).Nodup)
    (hforward : s.Forward o) (hkept : (s.take settings o).history.WellKept) {lines : List Progress}
    (hlines : List.Forall₂ (s.history.ProgressOn settings.correspondence) marks lines)
    (hsame : s.history.SameRecords (s.take settings o).history)
    (hadded : (s.take settings o).settled =
      s.settled ++ (lines.flatMap (·.reports)).map (fun r => (r.hash, r.render))) :
    (s.take settings o).Settled settings (lines.map fun p => (p.branch, p.current))
      (pairs ++ pairsOf lines) where
  nodup := by
    rw [List.nodup_append]
    refine ⟨hsettled.nodup, nodup_pairsOf htracks.kept hlines hbranches, ?_⟩
    rintro q hq q' hq' rfl
    -- The one line of the branch has left the commit behind, and would report it.
    obtain ⟨w, hw, hreach⟩ := hsettled.behind q hq
    obtain ⟨m, hm, hbranch, hnew, -⟩ := mem_pairsOf htracks.kept hlines hq'
    have heq : (q.1, w) = m := List.inj_on_of_nodup_map hbranches hw hm hbranch
    exact hnew (heq ▸ hreach)
  settled := by
    have hreportOn : ∀ branch hash,
        (s.take settings o).history.reportOn settings.correspondence branch hash =
          s.history.reportOn settings.correspondence branch hash := by
      intro branch hash
      unfold Recorded.reportOn
      rw [hsame.parents]
    rw [hadded, List.map_append,
      hsettled.settled_take (o := o) htracks (.of_eq hsame.order hsame.parents)]
    simp only [hreportOn, map_pairsOf hlines]
  behind := by
    rw [hsame.parents]
    intro q hq
    rcases List.mem_append.mp hq with hq | hq
    · obtain ⟨w, hw, hreach⟩ := hsettled.behind q hq
      obtain ⟨p, hp, hprogress⟩ := Recorded.ProgressOn.exists_line hlines _ hw
      obtain ⟨tip, hfound, htip⟩ := hsettled.reached q hq
      refine ⟨p.current, List.mem_map.mpr ⟨p, hp, by rw [hprogress.branch]⟩, ?_⟩
      rcases hprogress.current_cases htracks.kept hfound with heq | ⟨-, heq⟩
      · rw [heq]
        exact htip
      · rw [heq]
        exact hreach
    · obtain ⟨m, -, hbranch, -, p, hp, hpbranch, -, hreach⟩ := mem_pairsOf htracks.kept hlines hq
      exact ⟨p.current, List.mem_map.mpr ⟨p, hp, by rw [hpbranch, hbranch]⟩, hreach⟩
  reached := by
    intro q hq
    rcases List.mem_append.mp hq with hq | hq
    · exact hsettled.reached_take htracks hforward hkept (.of_eq hsame.order hsame.parents) q hq
    · obtain ⟨m, -, hbranch, -, p, -, -, hfound, hreach⟩ := mem_pairsOf htracks.kept hlines hq
      refine ⟨p.current, ?_, by rwa [hsame.parents]⟩
      rw [Recorded.found, hsame.lookup?, hbranch]
      exact hfound

end Settled

/-- At all times the settled reports are those on different pairs, and these are behind their
lines. -/
theorem settled_of_leads {start : Chronicle} (hstart : start.Tracks settings marks)
    (hempty : start.settled = []) (hbranches : (marks.map (·.1)).Nodup)
    (hleads : Leads settings Forward start s) :
    ∃ marks' pairs, s.Tracks settings marks' ∧ (marks'.map (·.1)).Nodup ∧
      s.Settled settings marks' pairs := by
  induction hleads with
  | refl => exact ⟨marks, [], hstart, hbranches, ⟨List.nodup_nil, hempty, nofun, nofun⟩⟩
  | tail _ hstep ih =>
    obtain ⟨marks', pairs, htracks, hbranches', hsettled⟩ := ih
    obtain ⟨o, hforward, rfl, hkept⟩ := hstep
    obtain ⟨hextends, ⟨htracks', hsame⟩ | ⟨lines, hlines, hsame, hadded, htracks'⟩⟩ :=
      take_cases htracks o hkept
    · exact ⟨marks', pairs, htracks', hbranches',
        hsettled.take_unsaved htracks hforward hkept hextends hsame⟩
    · refine ⟨_, _, htracks', ?_,
        hsettled.take_saved htracks hbranches' hforward hkept hlines hsame hadded⟩
      rw [List.map_map]
      exact (Recorded.ProgressOn.map_branch hlines).symm ▸ hbranches'

/-- **Nothing is reported twice.** While branches only move forward, the settled reports are those on
pairwise different pairs of a branch and a commit, and their texts are pairwise different. -/
theorem reported_once {start : Chronicle} (hstart : start.Tracks settings marks)
    (hempty : start.settled = []) (hbranches : (marks.map (·.1)).Nodup)
    (hleads : Leads settings Forward start s) :
    s.settled.Nodup ∧ ∃ pairs : List (String × String), pairs.Nodup ∧
      s.settled = pairs.map fun q =>
        (q.2, (s.history.reportOn settings.correspondence q.1 q.2).render) := by
  obtain ⟨marks', pairs, htracks, -, hsettled⟩ := settled_of_leads hstart hempty hbranches hleads
  refine ⟨?_, pairs, hsettled.nodup, hsettled.settled⟩
  obtain ⟨text, -, rfl⟩ := htracks.read
  have hfield : ∀ q ∈ pairs, Text.IsField q.1 := by
    intro q hq
    obtain ⟨w, hw, -⟩ := hsettled.behind q hq
    exact (Watermarks.mem_marksOf hw).1
  rw [hsettled.settled]
  refine hsettled.nodup.map_on fun q hq q' hq' heq => ?_
  obtain ⟨hhash, hrender⟩ := Prod.mk.inj heq
  let report (q : String × String) := s.history.reportOn settings.correspondence q.1 q.2
  have hbranch : (report q).branch = (report q').branch :=
    Report.branch_eq_of_render_eq rfl rfl (hfield q hq) (hfield q' hq') hrender
  exact Prod.ext hbranch hhash

/-- A run fails at its second report; the next one reports on both commits once. -/
theorem reported_once_sample :
    let s := (sample.take .sample (.run { refusal := some (1, "full") })).take .sample (.run {})
    s.settled.map (·.1) = ["b", "c"] ∧ s.settled.Nodup ∧
      ∃ pairs : List (String × String), pairs.Nodup ∧
        s.settled = pairs.map fun q =>
          (q.2, (s.history.reportOn Settings.sample.correspondence q.1 q.2).render) := by
  intro s
  have hsettled : s.settled.map (·.1) = ["b", "c"] := by
    cbv
  have hfailed : Leads .sample Forward sample
      (sample.take .sample (.run { refusal := some (1, "full") })) :=
    leads_run tracks_sample trivial
  obtain ⟨_, _, htracks, -⟩ := settled_of_leads tracks_sample rfl (by decide) hfailed
  have hleads : Leads .sample Forward sample s := hfailed.trans (leads_run htracks trivial)
  exact ⟨hsettled, reported_once tracks_sample rfl (by decide) hleads⟩

end CommitReports.Chronicle
