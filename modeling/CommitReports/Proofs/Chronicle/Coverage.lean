import CommitReports.Proofs.Chronicle.Basic

/-!
# No commit is lost

The watermark of a line may move in any direction, since branches may be rewound
or forced to other commits. What never changes is that whatever it reaches is
accounted for: it was reached by the line's first watermark, or its report is
settled (`Covered`). Recording, moving branches, failing and dry runs do not touch
this, and a run that succeeds adds to the settled reports just what the tip
reaches and the watermark does not (`covered_take`). So after a run that succeeds
everything that the tip of a tracked branch reaches is accounted for
(`no_commit_lost`).
-/

namespace CommitReports.Chronicle

variable {settings : Settings} {s : Chronicle} {first marks : List (String × String)}

/-- A commit was reached by the watermark of a mark, or its report under the mark's branch is
settled. -/
def Accounted (settings : Settings) (s : Chronicle) (m : String × String) (x : String) : Prop :=
  s.history.parents.Reaches m.2 x ∨
    (x, (s.history.reportOn settings.correspondence m.1 x).render) ∈ s.settled

/-- Each of the first marks has a mark now that reaches only what is accounted for. -/
def Covered (settings : Settings) (s : Chronicle) (first marks : List (String × String)) : Prop :=
  ∀ m ∈ first, ∃ m' ∈ marks, m'.1 = m.1 ∧
    ∀ x, s.history.parents.Reaches m'.2 x → s.Accounted settings m x

/-- What is accounted for stays so. -/
theorem Accounted.of_extends {s' : Chronicle} {m : String × String} {x : String}
    (h : s.Accounted settings m x) (hextends : s.history.Extends s'.history)
    (hsettled : s.settled ⊆ s'.settled) (hm : m.2 ∈ s.history.order) (hx : x ∈ s.history.order) :
    s'.Accounted settings m x := by
  rcases h with hreach | hreported
  · exact .inl ((hextends.reaches m.2 hm x).mpr hreach)
  · refine .inr ?_
    rw [hextends.reportOn x hx]
    exact hsettled hreported

/-- What a run has settled: for each of the first marks there is a line that has made progress, and
whatever its watermark or its tip reaches is accounted for. -/
theorem accounted_of_lines {s' : Chronicle} {lines : List Progress}
    (htracks : s.Tracks settings marks) (hcovered : s.Covered settings first marks)
    (hfirst : ∀ m ∈ first, m.2 ∈ s.history.order)
    (hlines : List.Forall₂ (s.history.ProgressOn settings.correspondence) marks lines)
    (hsame : s.history.SameRecords s'.history)
    (hsettled : s'.settled =
      s.settled ++ (lines.flatMap (·.reports)).map (fun r => (r.hash, r.render))) :
    ∀ m ∈ first, ∃ m' ∈ marks, m'.1 = m.1 ∧ ∃ p ∈ lines,
      s.history.ProgressOn settings.correspondence m' p ∧
      (∀ x, s.history.parents.Reaches m'.2 x → s'.Accounted settings m x) ∧
      ∀ tip, s.history.found m'.1 = .ok tip →
        ∀ x, s.history.parents.Reaches tip x → s'.Accounted settings m x := by
  intro m hm
  obtain ⟨m', hm', hbranch, hreach⟩ := hcovered m hm
  obtain ⟨p, hp, hprogress⟩ := Recorded.ProgressOn.exists_line hlines m' hm'
  have hextends : s.history.Extends s'.history := .of_eq hsame.order hsame.parents
  have hbefore : ∀ x, s.history.parents.Reaches m'.2 x → s'.Accounted settings m x := by
    intro x hx
    have hrecorded := htracks.kept.consistent.mem_order (htracks.recorded m' hm') hx
    refine (hreach x hx).of_extends hextends ?_ (hfirst m hm) hrecorded
    rw [hsettled]
    exact List.subset_append_left _ _
  refine ⟨m', hm', hbranch, p, hp, hprogress, hbefore, fun tip htip x hx => ?_⟩
  by_cases hreached : s.history.parents.Reaches m'.2 x
  · exact hbefore x hreached
  · -- The run has reported what the watermark has not reached.
    obtain ⟨hashes, hreports, -, hhashes⟩ := hprogress.reports_eq htracks.kept htip
    have hreport : s.history.reportOn settings.correspondence m'.1 x ∈ p.reports := by
      rw [hreports]
      exact List.mem_map_of_mem ((hhashes x).mpr ⟨hx, hreached⟩)
    have hrecorded : x ∈ s.history.order := by
      obtain ⟨tip', htip', hfound, -⟩ := id hprogress
      rw [htip] at hfound
      cases hfound
      exact htracks.kept.consistent.mem_order htip' hx
    refine .inr ?_
    rw [hsettled, hextends.reportOn x hrecorded, ← hbranch]
    refine List.mem_append_right _ ?_
    exact List.mem_map.mpr ⟨_, List.mem_flatMap.mpr ⟨p, hp, hreport⟩, rfl⟩

/-- **An occurrence leaves nothing behind** that would not be accounted for. -/
theorem covered_take (htracks : s.Tracks settings marks) (hcovered : s.Covered settings first marks)
    (hfirst : ∀ m ∈ first, m.2 ∈ s.history.order) (o : Occurrence)
    (hkept : (s.take settings o).history.WellKept) :
    ∃ marks', (s.take settings o).Tracks settings marks' ∧
      (s.take settings o).Covered settings first marks' := by
  obtain ⟨hextends, ⟨htracks', hsettled⟩ | ⟨lines, hlines, hsame, hsettled, htracks'⟩⟩ :=
    take_cases htracks o hkept
  · refine ⟨marks, htracks', fun m hm => ?_⟩
    obtain ⟨m', hm', hbranch, hreach⟩ := hcovered m hm
    refine ⟨m', hm', hbranch, fun x hx => ?_⟩
    have hrecorded := htracks.recorded m' hm'
    have hx' := (hextends.reaches m'.2 hrecorded x).mp hx
    exact (hreach x hx').of_extends hextends (by rw [hsettled]; exact List.Subset.refl _)
      (hfirst m hm) (htracks.kept.consistent.mem_order hrecorded hx')
  · refine ⟨_, htracks', fun m hm => ?_⟩
    obtain ⟨m', -, hbranch, p, hp, hprogress, hbefore, hreached⟩ :=
      accounted_of_lines htracks hcovered hfirst hlines hsame hsettled m hm
    obtain ⟨tip, -, htip, -⟩ := id hprogress
    refine ⟨(p.branch, p.current), List.mem_map_of_mem hp, hprogress.branch.trans hbranch, ?_⟩
    intro x hx
    rw [hsame.parents] at hx
    -- The line has gone on to the tip, or stayed where it was.
    rcases hprogress.current_cases htracks.kept htip with heq | ⟨-, heq⟩
    · exact hreached tip htip x (heq ▸ hx)
    · exact hbefore x (heq ▸ hx)

/-- At all times each of the first marks has a mark that reaches only what is accounted for. -/
theorem covered_of_leads {start : Chronicle} {allowed : Chronicle → Occurrence → Prop}
    (hstart : start.Tracks settings first) (hleads : Leads settings allowed start s) :
    ∃ marks, s.Tracks settings marks ∧ s.Covered settings first marks ∧
      ∀ m ∈ first, m.2 ∈ s.history.order := by
  induction hleads with
  | refl => exact ⟨first, hstart, fun m hm => ⟨m, hm, rfl, fun x hx => .inl hx⟩, hstart.recorded⟩
  | tail _ hstep ih =>
    obtain ⟨marks, htracks, hcovered, hfirst⟩ := ih
    obtain ⟨o, -, rfl, hkept⟩ := hstep
    obtain ⟨marks', htracks', hcovered'⟩ := covered_take htracks hcovered hfirst o hkept
    have hextends := (take_cases htracks o hkept).1
    exact ⟨marks', htracks', hcovered', fun m hm => hextends.recorded m.2 (hfirst m hm)⟩

/-- **No commit is lost.** After any sequence of occurrences, and then a run that succeeds and is no
dry one, each commit that the tip of a tracked branch reaches was reached by the line's first
watermark, or its report under the branch is settled. -/
theorem no_commit_lost {start : Chronicle} (hstart : start.Tracks settings first)
    (hleads : Leads settings (fun _ _ => True) start s) {c : Circumstances} {summary : Summary}
    (hok : (s.attempt settings c).1 = .ok summary) (hdry : c.options.dryRun = false) :
    let s' := s.take settings (.run c)
    ∀ m ∈ first, ∀ tip, s'.history.branches.lookup m.1 = some tip →
      ∀ x, s'.history.parents.Reaches tip x →
        s'.history.parents.Reaches m.2 x ∨
          (x, (s'.history.reportOn settings.correspondence m.1 x).render) ∈ s'.settled := by
  intro s' m hm tip htip x hx
  obtain ⟨marks, htracks, hcovered, hfirst⟩ := covered_of_leads hstart hleads
  obtain ⟨lines, hlines, hsame, hsettled, -⟩ := take_saved htracks hok hdry
  obtain ⟨m', -, hbranch, -, -, -, -, hreached⟩ :=
    accounted_of_lines htracks hcovered hfirst hlines hsame hsettled m hm
  have hfound : s.history.found m'.1 = .ok tip := by
    rw [hsame.branches] at htip
    simp only [Recorded.found, Recorded.lookup?, hbranch, htip]
  rw [hsame.parents] at hx
  exact hreached tip hfound x hx

/-- A run fails at its second report; the next one makes up for it. -/
theorem no_commit_lost_sample :
    let s := sample.take .sample (.run { refusal := some (1, "full") })
    let s' := s.take .sample (.run {})
    (∃ summary, (s.attempt .sample {}).1 = .ok summary) ∧
      ∀ tip, s'.history.branches.lookup "m" = some tip → ∀ x, s'.history.parents.Reaches tip x →
        s'.history.parents.Reaches "a" x ∨
          (x, (s'.history.reportOn { sender := "from", recipient := "to" } "m" x).render) ∈
            s'.settled := by
  intro s s'
  have hok : (s.attempt .sample {}).1 = .ok
      { branches := [{ branch := "m", previous := "a", current := "c", reported := 2 }]
        persisted := true } := by
    cbv
  exact ⟨⟨_, hok⟩, no_commit_lost tracks_sample (leads_run tracks_sample trivial) hok rfl
    ("m", "a") List.mem_cons_self⟩

end CommitReports.Chronicle
