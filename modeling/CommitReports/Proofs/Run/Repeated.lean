import CommitReports.Proofs.Recorded.Consistent
import CommitReports.Proofs.Run.DryRun
import CommitReports.Proofs.Run.Success
import CommitReports.Proofs.Watermarks.RoundTrip

/-!
# Runs that are repeated

A run that follows a successful one on a history that has not moved finds nothing
(`run_again`). Three things come together:

- The new watermark of a line is the tip of its branch, or nothing was listed and it is
  the old one (`Recorded.Orderly.stays`). A listing is newest first and begins with
  the tip, whatever the graph is; and from the tip on nothing is listed.
- What was saved is accepted and says the same, because hashes can stand as fields and
  stand for themselves.
- A run in which nothing is found hands nothing to its sink, whatever this is, and saves
  the text that is there (`Answers.Hold.reach_idle`).
-/

namespace CommitReports

/-! ## Listing again -/

namespace Recorded

variable {h : Recorded}

/-- Commits are recorded once and after their parents, and their hashes are not taken for anything
else. Branches may point anywhere. -/
structure Orderly (h : Recorded) : Prop where
  layered : h.parents.Layered
  order : h.order.reverse = h.parents.nodes
  field : ∀ hash ∈ h.order, Text.IsField hash
  apart : ∀ name tip, h.branches.lookup name = some tip → name ∉ h.order

namespace Orderly

/-- Without its branches the history is consistent. They have no part in what lies between two
commits. -/
theorem consistent (ho : h.Orderly) : ({ h with branches := [] } : Recorded).Consistent where
  layered := ho.layered
  order := ho.order
  tip := nofun
  apart := nofun

theorem found_hash (ho : h.Orderly) {hash : String} (hhash : hash ∈ h.order) :
    h.found hash = .ok hash :=
  found_of_apart (ho.consistent.mem_nodes.mpr hhash) fun tip hlookup => ho.apart hash tip hlookup hhash

/-- What a listing begins with is the tip, and recorded. -/
theorem head?_between (ho : h.Orderly) {since upto first : String}
    (hfirst : (h.between since upto).head? = some first) : first = upto ∧ upto ∈ h.order := by
  have hmem := List.mem_of_head? hfirst
  obtain ⟨hhash, hreach, -⟩ := mem_between.mp hmem
  have hupto : upto ∈ h.order := by
    by_contra hnot
    have hnode := mt ho.consistent.mem_nodes.mp hnot
    exact hnot (Graph.eq_of_reaches hnode hreach ▸ hhash)
  have hhead : (h.between since upto).head? = some upto :=
    ho.consistent.head?_between hupto (List.ne_nil_of_mem hmem)
  exact ⟨Option.some.inj (hfirst.symm.trans hhead), hupto⟩

/-- From where a line of progress has come to, nothing is listed, and this can be written and
resolves as well as what the line held before. -/
theorem stays (ho : h.Orderly) {mail : Correspondence} {branch previous : String} {p : Progress}
    (hp : h.answers.progress mail branch previous = .ok p) (hprevious : Text.IsField previous)
    (hresolves : ∃ target, h.found previous = .ok target) :
    h.answers.commitsBetween p.current branch = .ok [] ∧ Text.IsField p.current ∧
      ∃ target, h.found p.current = .ok target := by
  obtain ⟨listed, hlisted, hp⟩ := Answers.bind_eq_ok.mp hp
  obtain ⟨reports, hreports, hp⟩ := Answers.bind_eq_ok.mp hp
  cases hp
  obtain ⟨since, hsince, hlisting⟩ := Answers.bind_eq_ok.mp hlisted
  obtain ⟨upto, hupto, hlisting⟩ := Answers.bind_eq_ok.mp hlisting
  have hcurrent : Progress.current { branch, previous, reports } = listed.head?.getD previous := by
    have hhashes := congrArg (List.map Prod.snd) (Answers.mapM_report_eq_ok hreports)
    simp only [List.map_map, Function.comp_def, List.map_id'] at hhashes
    rw [Progress.current, ← List.getLast?_map, hhashes, List.getLast?_reverse]
  rw [hcurrent]
  cases hlisting
  cases hhead : (h.between since upto).head? with
  | none =>
    rw [List.head?_eq_none_iff.mp hhead] at hlisted
    exact ⟨hlisted, hprevious, hresolves⟩
  | some first =>
    obtain ⟨rfl, hrecorded⟩ := ho.head?_between hhead
    have hfound := ho.found_hash hrecorded
    refine ⟨?_, ho.field first hrecorded, first, hfound⟩
    have hnothing : h.between first first = [] :=
      (between_eq_nil_iff hrecorded).mpr (.refl _ first)
    exact Answers.bind_eq_ok.mpr ⟨first, hfound, Answers.bind_eq_ok.mpr ⟨first, hupto,
      congrArg Except.ok hnothing⟩⟩

/-- To a line that has made progress nothing has come, and it is accepted as before. -/
theorem idle (ho : h.Orderly) {settings : Settings} {m : String × String} {p : Progress}
    (hm : Watermarks.AreFields m ∧ h.answers.names.Verifies settings.checkoutBranches m)
    (hp : h.answers.taken settings (Watermarks.ofMark m) = .ok p) :
    (Watermarks.AreFields (p.branch, p.current) ∧
        h.answers.names.Verifies settings.checkoutBranches (p.branch, p.current)) ∧
      h.answers.discovered (Watermarks.ofMark (p.branch, p.current)) settings.checkoutBranches =
        .ok [] := by
  obtain ⟨hdiscovered, hprogress, hbranch, -⟩ := Answers.taken_eq_ok hp
  obtain ⟨⟨hfield, hprevious⟩, htarget, hlocal, hresolves⟩ := hm
  obtain ⟨hlisted, hcurrent, hfound⟩ := ho.stays hprogress hprevious hresolves
  rw [show p.branch = m.1 from hbranch]
  exact ⟨⟨⟨hfield, hcurrent⟩, htarget, hlocal, hfound⟩,
    Answers.discovered_of_nil (Answers.discovered_eq_ok hdiscovered).1 hlisted⟩

end Orderly

end Recorded

/-! ## Runs with nothing to report -/

section Idle

variable {ρ κ : Type} [History ρ] [Sink κ] {answers : Answers} {I : ρ → Files → Prop}
  {L : κ → Prop} {settings : Settings}

/-- A watermark to which nothing has come stays as it is. -/
theorem Answers.Hold.advance_idle (h : answers.Hold I) (dryRun : Bool) {watermark : Commit}
    (hidle : answers.discovered watermark settings.checkoutBranches = .ok []) :
    (CommitReports.advance settings dryRun watermark : Action (ρ × κ) Advance).Settled
      (fun r d => I r.1 d ∧ L r.2) (.ok (.over watermark [])) := by
  have hfound := h.discovered watermark settings.checkoutBranches
  rw [hidle] at hfound
  exact hfound.onFirst.bind_ok ((Action.Settled.pure ()).bind_ok (.pure _))

/-- If nothing has come to any watermark, they all stay, and the sink is left alone. -/
theorem Answers.Hold.reach_idle (h : answers.Hold I) {options : RunOptions}
    {read : Except SystemError String} {watermarks : List Commit}
    (hread : ∀ r d, I r d → d.readText settings.stateFile = read)
    (hprepared : answers.prepared settings options read = .ok watermarks)
    (hidle : ∀ w ∈ watermarks, answers.discovered w settings.checkoutBranches = .ok []) :
    (reach settings options : Action (ρ × κ) (List Advance)).Settled (fun r d => I r.1 d ∧ L r.2)
      (.ok (watermarks.map (Advance.over · []))) := by
  have hloaded := h.prepared options hread
  rw [hprepared] at hloaded
  refine hloaded.onFirst.bind_ok (.mapM_ok ?_)
  rw [List.forall₂_map_right_iff, List.forall₂_same]
  exact fun w hw => h.advance_idle options.dryRun (hidle w hw)

/-- The state file of a run that has got through its loading could be read. -/
theorem Answers.Hold.exists_text (h : answers.Hold I) {options : RunOptions}
    {read : Except SystemError String} {site after : Site (ρ × κ)} {summary : Summary}
    (hread : ∀ r d, I r d → d.readText settings.stateFile = read)
    (hsite : I site.resource.1 site.files)
    (hrun : (CommitReports.run settings options).perform site = (.ok summary, after)) :
    ∃ text, read = .ok text := by
  obtain ⟨watermarks, loaded, hload, -⟩ := Action.perform_bind_eq_ok.mp hrun
  have hprepared := ((h.prepared options hread).onFirst (L := fun _ => True)) site ⟨hsite, trivial⟩
  rw [hload] at hprepared
  obtain ⟨text, htext, -⟩ :=
    Names.loaded_eq_ok_iff.mp (prepared_eq_ok_iff.mp hprepared.1.symm).2
  exact ⟨text, htext⟩

end Idle

/-- **A run that finds nothing** succeeds, leaves the sink alone and keeps a plain state file as it
is, be it a dry run or one that writes the file anew. -/
theorem Answers.Hold.run_idle {ρ κ : Type} [History ρ] [Sink κ] {answers : Answers} {I : ρ → Prop}
    (site : Site (ρ × κ)) (h : answers.Hold fun (r : ρ) d => I r ∧ d = site.files)
    {settings : Settings} {options : RunOptions} {marks : List (String × String)}
    (hsite : I site.resource.1)
    (hread : site.files.readText settings.stateFile = .ok (Watermarks.plain marks))
    (hprepared : answers.prepared settings options (.ok (Watermarks.plain marks)) =
      .ok (marks.map Watermarks.ofMark))
    (hidle : ∀ m ∈ marks,
      answers.discovered (Watermarks.ofMark m) settings.checkoutBranches = .ok [])
    (hreplace : ∃ files, site.files.replace settings.stateFile (Watermarks.plain marks).toUTF8 =
      (.ok (), files)) :
    ∃ after, (CommitReports.run settings options).perform site =
        (.ok { branches := marks.map fun m =>
                 { branch := m.1, previous := m.2, current := m.2, reported := 0 }
               persisted := !options.dryRun }, after) ∧
      after.resource.2 = site.resource.2 ∧
      after.files.read settings.stateFile = site.files.read settings.stateFile := by
  have hstay : ∀ w ∈ marks.map Watermarks.ofMark,
      answers.discovered w settings.checkoutBranches = .ok [] := by
    intro w hw
    obtain ⟨m, hm, rfl⟩ := List.mem_map.mp hw
    exact hidle m hm
  obtain ⟨hreached, ⟨-, hfiles⟩, hsink⟩ := h.reach_idle (L := (· = site.resource.2))
    (fun _ _ h => h.2 ▸ hread) hprepared hstay site ⟨⟨hsite, rfl⟩, rfl⟩
  rw [List.map_map] at hreached
  obtain ⟨files, hreplace⟩ := hreplace
  have hrender : Watermarks.render ((marks.map ((Advance.over · []) ∘ Watermarks.ofMark)).map
      (·.current)) = Watermarks.plain marks := by
    rw [List.map_map]
    exact Watermarks.render_ofMark marks
  -- A dry run leaves the file; another one writes what is there already.
  obtain ⟨written, hwritten, hsame⟩ : ∃ written,
      (if options.dryRun then written = ((reach settings options).perform site).2.files
        else ((reach settings options).perform site).2.files.replace settings.stateFile
          (Watermarks.render ((marks.map ((Advance.over · []) ∘ Watermarks.ofMark)).map
            (·.current))).toUTF8 = (.ok (), written)) ∧
      written.read settings.stateFile = site.files.read settings.stateFile := by
    rw [hrender, hfiles]
    cases options.dryRun with
    | true => exact ⟨_, rfl, rfl⟩
    | false =>
      obtain ⟨_, hpath⟩ := Files.exists_writable_of_readText hread
      exact ⟨files, hreplace,
        (Files.read_replace hpath hreplace).trans (Files.readText_eq_ok_iff.mp hread).symm⟩
  obtain ⟨after, hconclude, hresource, hafter⟩ := exists_conclude settings options.dryRun _ _ hwritten
  refine ⟨after, ?_, by rw [hresource]; exact hsink, by rw [hafter, hsame]⟩
  rw [perform_run_of_reach hreached, hconclude, List.map_map]
  rfl

/-! ## The second run -/

/-- **A second run finds nothing**, and leaves the state file as the first one has written it. -/
theorem run_again {settings : Settings} {options : RunOptions}
    {site after : Site (Recorded × Mailbox)} {summary : Summary}
    (horderly : site.resource.1.Orderly) (hdry : options.dryRun = false)
    (hrun : (run settings options).perform site = (.ok summary, after)) (again : RunOptions)
    (box : Mailbox)
    (hrefresh : again.refresh = true →
      options.refresh = true ∨ site.resource.1.unreachable = false) :
    ∃ later, (run settings again).perform { after with resource := (after.resource.1, box) } =
        (.ok { branches := summary.branches.map fun b =>
                 { b with previous := b.current, reported := 0 }
               persisted := !again.dryRun }, later) ∧
      later.resource.2 = box ∧
      ∃ bytes, after.files.read settings.stateFile = .ok bytes ∧
        later.files.read settings.stateFile = .ok bytes := by
  obtain ⟨text, htext⟩ := (Recorded.hold _ site.files).exists_text (fun _ _ h => by rw [h.2])
    ⟨.refl _, rfl⟩ hrun
  obtain ⟨hprepared, haccepted, lines, _, hlines, ⟨halike, rfl⟩, hreplace, haccomplished⟩ :=
    (Recorded.hold _ site.files).run_taken (fun _ _ h => h.2 ▸ htext) hdry ⟨.refl _, rfl⟩ hrun
  -- What the first run has written is accepted, and nothing has come to its lines.
  let marks := lines.map fun p => (p.branch, p.current)
  have hmarks : ∀ m ∈ marks, (Watermarks.AreFields m ∧
      site.resource.1.answers.names.Verifies settings.checkoutBranches m) ∧
      site.resource.1.answers.discovered (Watermarks.ofMark m) settings.checkoutBranches = .ok [] := by
    intro m hm
    obtain ⟨p, hp, rfl⟩ := List.mem_map.mp hm
    obtain ⟨w, hw, htaken⟩ := Answers.exists_of_mem_mapM hlines hp
    obtain ⟨m, hm, rfl⟩ := List.mem_map.mp hw
    exact horderly.idle (Watermarks.verifies_of_accepts haccepted m hm) htaken
  have hsaved : Watermarks.plain marks = Text.unlines (lines.map (·.line)) := by
    rw [Watermarks.plain, List.map_map]
    rfl
  have hplain : after.files.readText settings.stateFile = .ok (Watermarks.plain marks) := by
    rw [haccomplished.saved, hsaved]
  have hmarksOf := Watermarks.marksOf_plain fun m hm => (hmarks m hm).1.1
  have hready : site.resource.1.answers.prepared settings again (.ok (Watermarks.plain marks)) =
      .ok (marks.map Watermarks.ofMark) := by
    refine Answers.prepared_eq_ok_iff.mpr ⟨fun hagain => ?_, Names.loaded_eq_ok_iff.mpr
      ⟨_, rfl, Watermarks.accepts_plain fun m hm => (hmarks m hm).1, by rw [hmarksOf]⟩⟩
    rcases hrefresh hagain with hrefreshed | hreachable
    · exact (Answers.prepared_eq_ok_iff.mp hprepared).1 hrefreshed
    · simp [Recorded.answers, hreachable]
  -- The disk takes the same text once more.
  obtain ⟨_, hpath⟩ := Files.exists_writable_of_readText htext
  have hagain := Files.replace_again hpath hreplace
  rw [← hsaved] at hagain
  obtain ⟨later, hlater, hsink, hbytes⟩ := (Recorded.hold _ after.files).run_idle
    { after with resource := (after.resource.1, box) } halike hplain hready
    (fun m hm => (hmarks m hm).2) hagain
  refine ⟨later, ?_, hsink, _, Files.readText_eq_ok_iff.mp hplain, ?_⟩
  · rw [hlater, haccomplished.summary, List.map_map, List.map_map]
    rfl
  · rw [hbytes]
    exact Files.readText_eq_ok_iff.mp hplain

/-- A line with two new commits and one that follows its branch: the second run needs nothing of its
sink, which refuses everything. -/
theorem run_again_sample :
    let site : Site (Recorded × Mailbox) :=
      { resource := (.sample, { name := "box" }), files := .holding "m a\nm m\n" }
    let full : Mailbox := { name := "full", refusal := some (0, "no room") }
    ∃ summary after later, (run .sample {}).perform site = (.ok summary, after) ∧
      after.resource.2.commits = ["b", "c"] ∧
      (run .sample { refresh := true }).perform
          { after with resource := (after.resource.1, full) } =
        (.ok { branches := [{ branch := "m", previous := "c", current := "c", reported := 0 },
                 { branch := "m", previous := "m", current := "m", reported := 0 }]
               persisted := true }, later) ∧
      later.resource.2 = full ∧
      later.files.read "/state" = .ok "m c\nm m\n".toUTF8 := by
  intro site full
  have horderly : Recorded.sample.Orderly :=
    ⟨Recorded.wellKept_sample.layered, Recorded.wellKept_sample.order,
      Recorded.wellKept_sample.field, Recorded.wellKept_sample.apart⟩
  have hrun : (run .sample {}).perform site =
      (.ok { branches := [{ branch := "m", previous := "a", current := "c", reported := 2 },
               { branch := "m", previous := "m", current := "m", reported := 0 }]
             persisted := true }, ((run .sample {}).perform site).2) := Prod.ext (by cbv) rfl
  obtain ⟨later, hlater, hsink, bytes, hbytes, hsame⟩ :=
    run_again horderly rfl hrun { refresh := true } full fun _ => .inr rfl
  have hwritten : ((run .sample {}).perform site).2.files.readText "/state" =
      .ok "m c\nm m\n" := by cbv
  refine ⟨_, _, later, hrun, by cbv, hlater, hsink, ?_⟩
  exact hsame.trans (hbytes.symm.trans (Files.readText_eq_ok_iff.mp hwritten))

end CommitReports
