import CommitReports.Proofs.Action.Contract
import CommitReports.Proofs.Recorded.Answers
import CommitReports.Proofs.Recorded.WellKept
import CommitReports.Proofs.Sink.Tallied
import CommitReports.Proofs.Watermarks.Loading

/-!
# The work that a run makes a history do

A recorded history counts what it is asked. `Recorded.Worked` says how far its counts
have come: fetched so often, these branches shown, so many summaries and patches made.
Resolving names, listing commits and looking for parents count nothing
(`Recorded.keeps_uncounted`), so the work of a run is that of three places:

- fetching, once at its start if that is asked for;
- showing the branch of a line before its commits are listed;
- the summary and the patch of each commit that is reported, one of each
  (`Recorded.about_yields`), which the handle of the commit does not ask for again.

The sink is tallied to tell a refused report from other failures. Before each commit
the summaries, the patches and the reports taken are equally many
(`Recorded.Reported`), so a report that is refused finds both counts one ahead.
-/

namespace CommitReports

/-- The question counts nothing. -/
def Question.isUncounted : Question → Bool
  | .resolve _ => true
  | .commitsBetween _ _ => true
  | .parent _ => true
  | .hasLocalBranch _ => true
  | _ => false

/-- The end of a run has no part in the work. -/
theorem conclude_ends {ρ : Type} {I : ρ → Prop} (settings : Settings) (dryRun : Bool)
    (advances : List Advance) :
    (conclude settings dryRun advances : Action ρ Summary).Ends (fun r _ => I r)
      (fun summary r _ => summary.branches = advances.map (·.summary) ∧ I r) fun r _ => I r := by
  cases dryRun with
  | true => exact (Action.Ends.say _).bind fun _ => .pure fun _ _ hr => ⟨rfl, hr⟩
  | false =>
    refine Action.Ends.bind (J := fun _ r _ => I r) (fun site hsite => ?_) fun _ =>
      .pure fun _ _ hr => ⟨rfl, hr⟩
    split
    next hsave => rwa [(Watermarks.replace_of_save hsave).2]
    next hsave => rwa [(Watermarks.save_error hsave).1]

namespace Recorded

/-- The history has the same records, has fetched so often more, has shown these branches besides,
and has made so many summaries and patches more. -/
structure Worked (h : Recorded) (fetched : Nat) (shown : List String) (summaries patches : Nat)
    (now : Recorded) : Prop extends h.Alike now where
  refreshes : now.refreshCount = h.refreshCount + fetched
  checkouts : now.checkouts = h.checkouts ++ shown
  summaries : now.whatChangedCount = h.whatChangedCount + summaries
  patches : now.diffCount = h.diffCount + patches

theorem Worked.refl (h : Recorded) : h.Worked 0 [] 0 0 h :=
  ⟨.refl h, rfl, (List.append_nil _).symm, rfl, rfl⟩

/-! ## Single questions -/

theorem find_keeps (name : String) (I : Recorded → Files → Prop) : (find name).Keeps I := by
  refine Action.Keeps.bind (fun _ hsite => hsite) fun now => ?_
  split
  next => exact .pure _
  next => exact .throw _

/-- A question that counts nothing changes nothing. -/
theorem keeps_uncounted (I : Recorded → Files → Prop) :
    History.Keeps (fun q => q.isUncounted = true) I := by
  have hresource : (Action.resource : Action Recorded Recorded).Keeps I := fun _ hsite => hsite
  intro q hq
  cases q with
  | resolve revision => exact (find_keeps revision I).bind fun _ => .pure _
  | commitsBetween since upto =>
    refine Action.Keeps.bind ?_ fun _ => .pure _
    exact (find_keeps since I).bind fun _ => (find_keeps upto I).bind fun _ =>
      hresource.bind fun _ => .pure _
  | parent commit =>
    refine Action.Keeps.bind ?_ fun _ => .pure _
    exact (find_keeps commit I).bind fun _ => hresource.bind fun _ => .pure _
  | hasLocalBranch name =>
    refine Action.Keeps.bind ?_ fun _ => .pure _
    exact hresource.bind fun _ => .pure _
  | whatChanged _ => cases hq
  | diff _ _ => cases hq
  | checkout _ => cases hq
  | refresh => cases hq

variable {h : Recorded} {fetched summaries patches : Nat} {shown : List String}

/-- An answer costs what is counted before it is looked for. -/
private theorem yields_counting {α : Type} {f : Recorded → Recorded} {act : Action Recorded α}
    {I J : Recorded → Files → Prop} (hf : ∀ now d, I now d → J (f now) d) (hact : act.Keeps J) :
    (Action.change f >>= fun _ => act).Yields I fun _ => J := by
  refine Action.Yields.bind (J := fun _ => J) (fun site _ after hsite hp => ?_) fun _ => hact.yields
  cases hp
  exact hf _ _ hsite

theorem whatChanged_yields (commit : String) :
    (History.whatChanged commit : Action Recorded String).Yields
      (fun now _ => h.Worked fetched shown summaries patches now)
      fun _ now _ => h.Worked fetched shown (summaries + 1) patches now := by
  refine yields_counting (fun now _ hnow => ?_) ?_
  · exact ⟨hnow.toAlike.recount ⟨rfl, rfl, rfl⟩ rfl, hnow.refreshes, hnow.checkouts,
      congrArg (· + 1) hnow.summaries, hnow.patches⟩
  · exact (find_keeps commit _).bind fun _ => .pure _

theorem diff_yields (base : Option String) (tip : String) :
    (History.diff base tip : Action Recorded String).Yields
      (fun now _ => h.Worked fetched shown summaries patches now)
      fun _ now _ => h.Worked fetched shown summaries (patches + 1) now := by
  refine yields_counting (fun now _ hnow => ?_) ?_
  · exact ⟨hnow.toAlike.recount ⟨rfl, rfl, rfl⟩ rfl, hnow.refreshes, hnow.checkouts,
      hnow.summaries, congrArg (· + 1) hnow.patches⟩
  · refine (find_keeps tip _).bind fun _ => ?_
    cases base with
    | none => exact .pure _
    | some base => exact (find_keeps base _).bind fun _ => .pure _

theorem refresh_yields :
    (History.refresh : Action Recorded Unit).Yields
      (fun now _ => h.Worked fetched shown summaries patches now)
      fun _ now _ => h.Worked (fetched + 1) shown summaries patches now := by
  refine yields_counting (fun now _ hnow => ?_) ?_
  · exact ⟨hnow.toAlike.recount ⟨rfl, rfl, rfl⟩ rfl, congrArg (· + 1) hnow.refreshes,
      hnow.checkouts, hnow.summaries, hnow.patches⟩
  · refine Action.Keeps.bind (fun _ hsite => hsite) fun now => ?_
    split
    next => exact .throw _
    next => exact .pure _

/-- A branch that can be shown is noted down. -/
theorem checkout_yields (branch : String) :
    (History.checkout branch : Action Recorded Unit).Yields
      (fun now _ => h.Worked fetched shown summaries patches now)
      fun _ now _ => h.Worked fetched (shown ++ [branch]) summaries patches now := by
  refine Action.Yields.bind (J := fun _ now _ => h.Worked fetched shown summaries patches now)
    (Action.Keeps.yields fun _ hsite => hsite) fun now => ?_
  split
  next => exact .throw _
  next =>
    intro site _ after hsite hp
    cases hp
    refine ⟨hsite.toAlike.recount ⟨rfl, rfl, rfl⟩ rfl, hsite.refreshes, ?_, hsite.summaries,
      hsite.patches⟩
    rw [← List.append_assoc, ← hsite.checkouts]

/-! ## The parts of a run -/

/-- Up to the watermarks, all that counts is that new commits are fetched if that is asked for. -/
theorem prepare_yields (settings : Settings) (options : RunOptions) :
    (prepare settings options : Action Recorded (List Commit)).Yields
      (fun now _ => h.Worked 0 shown summaries patches now)
      fun _ now _ => h.Worked (if options.refresh then 1 else 0) shown summaries patches now := by
  have hload : ∀ I, (Watermarks.load settings.stateFile settings.checkoutBranches :
      Action Recorded (List Commit)).Yields I fun _ => I := fun I =>
    (Watermarks.load_keeps (keeps_uncounted I) (fun _ => rfl) (fun _ => rfl) _ _).yields
  unfold prepare
  cases options.refresh with
  | false => exact hload _
  | true =>
    exact (Action.Keeps.say _).yields.bind fun _ => refresh_yields.bind fun _ => hload _

/-- How many commits have come to the branch of a line since its watermark. -/
def news (h : Recorded) (m : String × String) : Nat :=
  match h.answers.commitsBetween m.2 m.1 with
  | .ok listed => listed.length
  | .error _ => 0

/-- The branches that are shown in the working tree for some lines. -/
def shownFor (checkout : Bool) (marks : List (String × String)) : List String :=
  if checkout then marks.map (·.1) else []

theorem shownFor_append (checkout : Bool) (front rest : List (String × String)) :
    shownFor checkout (front ++ rest) = shownFor checkout front ++ shownFor checkout rest := by
  cases checkout with
  | false => rfl
  | true => exact List.map_append

/-- Discovery shows the branch if that is asked for, and finds the commits that have come. -/
theorem discover_yields (m : String × String) (checkout : Bool) :
    (discover (Watermarks.ofMark m) checkout : Action Recorded (List Commit)).Yields
      (fun now _ => h.Worked fetched shown summaries patches now)
      fun commits now _ => commits.length = h.news m ∧
        h.Worked fetched (shown ++ shownFor checkout [m]) summaries patches now := by
  have hlisting : ∀ I, (discover (Watermarks.ofMark m) false : Action Recorded (List Commit)).Keeps I :=
    fun I => discover_false_keeps (keeps_uncounted I) (fun _ => rfl) (fun _ _ => rfl) _
  have hwork : (discover (Watermarks.ofMark m) checkout : Action Recorded (List Commit)).Yields
      (fun now _ => h.Worked fetched shown summaries patches now)
      fun _ now _ => h.Worked fetched (shown ++ shownFor checkout [m]) summaries patches now := by
    cases checkout with
    | false =>
      rw [shownFor, if_neg Bool.false_ne_true, List.append_nil]
      exact (hlisting _).yields
    | true => exact (checkout_yields m.1).bind fun _ => (hlisting _).yields
  intro site commits after hsite hp
  refine ⟨?_, hwork site commits after hsite hp⟩
  -- The answers say how many commits are found.
  have hdiscovered := (h.hold_anywhere.discovered (Watermarks.ofMark m) checkout site hsite.toAlike).1
  rw [hp] at hdiscovered
  obtain ⟨-, listed, hlisted, rfl⟩ := Answers.discovered_eq_ok hdiscovered.symm
  have hlisted : h.answers.commitsBetween m.2 m.1 = .ok listed := hlisted
  rw [List.length_map, List.length_reverse, news, hlisted]

/-- A report takes one summary and one patch. -/
theorem about_yields (mail : Correspondence) (commit : Commit) :
    (Report.about mail commit : Action Recorded Report).Yields
      (fun now _ => h.Worked fetched shown summaries patches now)
      fun _ now _ => h.Worked fetched shown (summaries + 1) (patches + 1) now := by
  have hbase : ∀ I, (Commit.patchBase commit.hash : Action Recorded (Option String)).Keeps I := by
    intro I
    refine ((keeps_uncounted I).parent rfl).tryCatch fun e => ?_
    split
    next => exact .pure _
    next => exact .throw _
  exact (whatChanged_yields _).bind fun _ => (hbase _).yields.bind fun _ =>
    (diff_yields _ _).bind fun _ => .pure fun _ _ hnow => hnow

/-! ## Reports, taken and refused -/

variable {κ : Type}

/-- Between two commits: so many reports were made and, unless the run is a dry one, taken. -/
structure Reported (h : Recorded) (dryRun : Bool) (fetched : Nat) (shown : List String)
    (reports : Nat) (r : Recorded × Tallied κ) : Prop where
  worked : h.Worked fetched shown reports reports r.1
  taken : dryRun = false → r.2.taken = reports
  refused : r.2.refused = 0

/-- A report was refused after so many were taken, so one more was made. -/
structure Refused (h : Recorded) (fetched : Nat) (shown : List String) (taken : Nat)
    (r : Recorded × Tallied κ) : Prop where
  worked : h.Worked fetched shown (taken + 1) (taken + 1) r.1
  taken : r.2.taken = taken
  refused : r.2.refused = 1

variable [Sink κ] {dryRun : Bool} {reports : Nat}

/-- Handing a report over has no part in the work; what is refused is counted as such. -/
theorem handOver_ends (commit : Commit) (message : String) :
    (handOver dryRun commit message : Action (Recorded × Tallied κ) Unit).Ends
      (fun r _ => h.Worked fetched shown (reports + 1) (reports + 1) r.1 ∧
        (dryRun = false → r.2.taken = reports) ∧ r.2.refused = 0)
      (fun _ r _ => h.Reported dryRun fetched shown (reports + 1) r)
      fun r _ => h.Refused fetched shown reports r := by
  cases dryRun with
  | true =>
    rintro site ⟨hworked, -, hrefused⟩
    exact ⟨hworked, nofun, hrefused⟩
  | false =>
    refine (Action.Ends.say _).bind fun _ => ?_
    rintro site ⟨hworked, htaken, hrefused⟩
    rw [Action.perform_onSecond, Tallied.perform_deliver]
    rcases (Sink.deliver commit.hash message : Action κ Unit).perform
      { site with resource := site.resource.2.sink } with ⟨⟨e⟩ | ⟨⟨⟩⟩, after⟩
    · exact ⟨hworked, htaken rfl, congrArg (· + 1) hrefused⟩
    · exact ⟨hworked, fun _ => congrArg (· + 1) (htaken rfl), hrefused⟩

/-- **One commit takes one summary, one patch and one delivery.** -/
theorem dispatch_ends (mail : Correspondence) (commit : Commit) :
    (dispatchCommit mail dryRun commit : Action (Recorded × Tallied κ) Unit).Ends
      (fun r _ => h.Reported dryRun fetched shown reports r)
      (fun _ r _ => h.Reported dryRun fetched shown (reports + 1) r)
      fun r _ => r.2.refused = 0 ∨ h.Refused fetched shown reports r := by
  rw [dispatchCommit_eq]
  have habout : (Report.about mail commit : Action Recorded Report).Yields
      (fun now _ => h.Worked fetched shown reports reports now)
      fun _ now _ => h.Worked fetched shown (reports + 1) (reports + 1) now :=
    about_yields mail commit
  have hfirst := habout.ends_onFirst (L := fun t : Tallied κ =>
    (dryRun = false → t.taken = reports) ∧ t.refused = 0)
  refine (hfirst.imp ?_ (fun _ _ _ hr => hr) ?_).bind fun report =>
    (handOver_ends commit report.render).imp_failure fun _ _ => .inr
  · exact fun _ _ hr => ⟨hr.worked, hr.taken, hr.refused⟩
  · exact fun _ _ hr => .inl hr.2

/-- A line takes the work of the commits that have come, and its branch is shown first. -/
theorem advance_ends (settings : Settings) (m : String × String) :
    (advance settings dryRun (Watermarks.ofMark m) : Action (Recorded × Tallied κ) Advance).Ends
      (fun r _ => h.Reported dryRun fetched shown reports r)
      (fun made r _ => made.summary.reported = h.news m ∧
        h.Reported dryRun fetched (shown ++ shownFor settings.checkoutBranches [m])
          (reports + h.news m) r)
      fun r _ => r.2.refused = 0 ∨ ∃ k < h.news m,
        h.Refused fetched (shown ++ shownFor settings.checkoutBranches [m]) (reports + k) r := by
  have hdiscover : (discover (Watermarks.ofMark m) settings.checkoutBranches :
      Action Recorded (List Commit)).Yields
        (fun now _ => h.Worked fetched shown reports reports now)
        fun commits now _ => commits.length = h.news m ∧ h.Worked fetched
          (shown ++ shownFor settings.checkoutBranches [m]) reports reports now :=
    discover_yields m settings.checkoutBranches
  have hfirst := hdiscover.ends_onFirst (L := fun t : Tallied κ =>
    (dryRun = false → t.taken = reports) ∧ t.refused = 0)
  have hlisted : (Action.onFirst (discover (Watermarks.ofMark m) settings.checkoutBranches) :
      Action (Recorded × Tallied κ) (List Commit)).Ends
        (fun r _ => h.Reported dryRun fetched shown reports r)
        (fun commits r _ => commits.length = h.news m ∧ h.Reported dryRun fetched
          (shown ++ shownFor settings.checkoutBranches [m]) reports r)
        fun r _ => r.2.refused = 0 ∨ ∃ k < h.news m,
          h.Refused fetched (shown ++ shownFor settings.checkoutBranches [m]) (reports + k) r :=
    hfirst.imp (fun _ _ hr => ⟨hr.worked, hr.taken, hr.refused⟩)
      (fun _ _ _ hr => ⟨hr.1.1, hr.1.2, hr.2.1, hr.2.2⟩) fun _ _ hr => .inl hr.2
  refine hlisted.bind fun commits => .of_fact fun hlength => ?_
  have hreports : (commits.forM (dispatchCommit settings.correspondence dryRun) :
      Action (Recorded × Tallied κ) PUnit).Ends
        (fun r _ => h.Reported dryRun fetched (shown ++ shownFor settings.checkoutBranches [m]) reports r)
        (fun _ r _ => h.Reported dryRun fetched (shown ++ shownFor settings.checkoutBranches [m])
          (reports + commits.length) r)
        fun r _ => ∃ k < commits.length, r.2.refused = 0 ∨
          h.Refused fetched (shown ++ shownFor settings.checkoutBranches [m]) (reports + k) r :=
    Action.Ends.forM (I := fun n r _ => h.Reported dryRun fetched
        (shown ++ shownFor settings.checkoutBranches [m]) n r)
      (F := fun n r _ => r.2.refused = 0 ∨
        h.Refused fetched (shown ++ shownFor settings.checkoutBranches [m]) n r)
      (fun commit _ => dispatch_ends settings.correspondence commit) commits reports
  rw [hlength] at hreports
  refine (hreports.imp_failure ?_).bind fun _ => .pure fun _ _ hr => ⟨hlength, hr⟩
  rintro r d ⟨k, hk, hr⟩
  exact hr.imp_right fun hr => ⟨k, hk, hr⟩

/-- **The lines of a state file take the work of their commits, line by line.** A report that is
refused belongs to a line, and the branches of the lines up to this one are shown. -/
theorem advances_ends (settings : Settings) :
    ∀ (marks : List (String × String)) (shown : List String) (reports : Nat),
      ((marks.map Watermarks.ofMark).mapM (advance settings dryRun) :
        Action (Recorded × Tallied κ) (List Advance)).Ends
          (fun r _ => h.Reported dryRun fetched shown reports r)
          (fun advances r _ => advances.map (·.summary.reported) = marks.map h.news ∧
            h.Reported dryRun fetched (shown ++ shownFor settings.checkoutBranches marks)
              (reports + (marks.map h.news).sum) r)
          fun r _ => r.2.refused = 0 ∨ ∃ before m rest k, marks = before ++ m :: rest ∧
            k < h.news m ∧
            h.Refused fetched (shown ++ shownFor settings.checkoutBranches (before ++ [m]))
              (reports + (before.map h.news).sum + k) r := by
  intro marks
  induction marks with
  | nil =>
    intro shown reports
    refine .pure fun r _ hr => ⟨rfl, ?_⟩
    have hnone : shownFor settings.checkoutBranches [] = [] := by
      cases settings.checkoutBranches <;> rfl
    rwa [hnone, List.append_nil]
  | cons m marks ih =>
    intro shown reports
    rw [List.map_cons, List.mapM_cons]
    refine ((advance_ends settings m).imp_failure ?_).bind fun made => ?_
    · rintro r d (hr | ⟨k, hk, hr⟩)
      · exact .inl hr
      · exact .inr ⟨[], m, marks, k, rfl, hk, hr⟩
    refine .of_fact fun hmade => ?_
    have hshown : shownFor settings.checkoutBranches (m :: marks) =
        shownFor settings.checkoutBranches [m] ++ shownFor settings.checkoutBranches marks :=
      shownFor_append settings.checkoutBranches [m] marks
    refine ((ih _ (reports + h.news m)).imp_failure ?_).bind fun advances => .pure ?_
    · rintro r d (hr | ⟨before, m', rest, k, rfl, hk, hr⟩)
      · exact .inl hr
      · refine .inr ⟨m :: before, m', rest, k, rfl, hk, ?_⟩
        rw [List.cons_append, List.map_cons, List.sum_cons]
        rw [List.append_assoc, ← shownFor_append] at hr
        rwa [← Nat.add_assoc]
    · rintro r d ⟨hadvances, hr⟩
      rw [List.map_cons, List.map_cons, hmade, hadvances, List.sum_cons, hshown,
        ← List.append_assoc, ← Nat.add_assoc]
      exact ⟨rfl, hr⟩

/-- After the watermarks are loaded, a run takes the work of its reports. -/
theorem reporting_ends (settings : Settings) (dryRun : Bool) (fetched : Nat)
    (marks : List (String × String)) :
    ((marks.map Watermarks.ofMark).mapM (advance settings dryRun) >>= conclude settings dryRun :
      Action (Recorded × Tallied κ) Summary).Ends
        (fun r _ => h.Reported dryRun fetched [] 0 r)
        (fun summary r _ =>
          h.Reported dryRun fetched (shownFor settings.checkoutBranches marks) summary.total r)
        fun r _ => r.2.refused = 0 ∨ ∃ before m rest k, marks = before ++ m :: rest ∧
          k < h.news m ∧ h.Refused fetched (shownFor settings.checkoutBranches (before ++ [m]))
            ((before.map h.news).sum + k) r := by
  have hadvances : ((marks.map Watermarks.ofMark).mapM (advance settings dryRun) :
      Action (Recorded × Tallied κ) (List Advance)).Ends
        (fun r _ => h.Reported dryRun fetched [] 0 r)
        (fun advances r _ => advances.map (·.summary.reported) = marks.map h.news ∧
          h.Reported dryRun fetched (shownFor settings.checkoutBranches marks)
            (marks.map h.news).sum r)
        fun r _ => r.2.refused = 0 ∨ ∃ before m rest k, marks = before ++ m :: rest ∧
          k < h.news m ∧ h.Refused fetched (shownFor settings.checkoutBranches (before ++ [m]))
            ((before.map h.news).sum + k) r := by
    simpa only [List.nil_append, Nat.zero_add] using advances_ends settings marks [] 0
  refine hadvances.bind fun advances => .of_fact fun hadvances => ?_
  refine (conclude_ends (I := fun r => h.Reported dryRun fetched
    (shownFor settings.checkoutBranches marks) (marks.map h.news).sum r) settings dryRun
      advances).imp (fun _ _ hr => hr) ?_ fun _ _ hr => .inl hr.refused
  rintro summary r d ⟨hbranches, hr⟩
  have hsum : summary.total = (marks.map h.news).sum := by
    rw [← hadvances, Summary.total, hbranches, List.map_map]
    rfl
  rwa [hsum]

end Recorded

/-! ## Whole runs -/

variable {κ : Type} [Sink κ]

/-- **A run does no more work than its reports need.** When it succeeds it has fetched if that was
asked for, shown the branches of all lines if that was asked for, and made one summary and one patch
for each report. When the sink refuses a report it has made those of this report besides those that
were taken, and has shown the branches of the lines up to the one that the report belongs to. -/
theorem run_work {settings : Settings} {options : RunOptions} {site : Site (Recorded × κ)}
    {after : Site (Recorded × Tallied κ)} {result : Except Failure Summary}
    (hrun : (run settings options).perform site.tallied = (result, after)) :
    (run settings options).perform site = (result, after.withPart (·.sink)) ∧
    (∀ summary, result = .ok summary → ∃ text,
      site.files.readText settings.stateFile = .ok text ∧
      site.resource.1.Worked (if options.refresh then 1 else 0)
        (Recorded.shownFor settings.checkoutBranches (Watermarks.marksOf text))
        summary.total summary.total after.resource.1) ∧
    (after.resource.2.refused ≠ 0 → (∃ e, result = .error e) ∧ ∃ text before m rest,
      site.files.readText settings.stateFile = .ok text ∧
      Watermarks.marksOf text = before ++ m :: rest ∧
      (before.map site.resource.1.news).sum ≤ after.resource.2.taken ∧
      after.resource.2.taken < (before.map site.resource.1.news).sum + site.resource.1.news m ∧
      site.resource.1.Worked (if options.refresh then 1 else 0)
        (Recorded.shownFor settings.checkoutBranches (before ++ [m]))
        (after.resource.2.taken + 1) (after.resource.2.taken + 1) after.resource.1) := by
  have hplain := Tallied.perform_run settings options site.tallied
  rw [hrun] at hplain
  refine ⟨hplain, ?_⟩
  have hprepared := ((site.resource.1.hold site.files).prepared options fun _ _ hsite =>
    congrArg (·.readText settings.stateFile) hsite.2) { site with resource := site.resource.1 }
      ⟨.refl _, rfl⟩
  have hfetched : (prepare settings options : Action Recorded (List Commit)).Yields
      (fun now _ => site.resource.1.Worked 0 [] 0 0 now)
      fun _ now _ => site.resource.1.Worked (if options.refresh then 1 else 0) [] 0 0 now :=
    Recorded.prepare_yields settings options
  have hfirst : (Action.onFirst (prepare settings options) :
      Action (Recorded × Tallied κ) (List Commit)).perform site.tallied =
        let made := (prepare settings options).perform { site with resource := site.resource.1 }
        (made.1, { made.2 with resource := (made.2.resource, { sink := site.resource.2 }) }) := rfl
  unfold run at hrun
  rw [Action.perform_bind, hfirst] at hrun
  rcases hprepare : (prepare settings options).perform { site with resource := site.resource.1 } with
    ⟨⟨e⟩ | ⟨watermarks⟩, loaded⟩
  · -- Without watermarks nothing is reported.
    rw [hprepare] at hrun
    cases hrun
    exact ⟨nofun, fun hrefused => absurd rfl hrefused⟩
  · rw [hprepare] at hprepared hrun
    have hworked := hfetched _ _ _ (.refl _) hprepare
    obtain ⟨text, hread, -, rfl⟩ :=
      Names.loaded_eq_ok_iff.mp (Answers.prepared_eq_ok_iff.mp hprepared.1.symm).2
    have hrest := Recorded.reporting_ends (h := site.resource.1) settings options.dryRun _
      (Watermarks.marksOf text)
      { loaded with resource := (loaded.resource, ({ sink := site.resource.2 } : Tallied κ)) }
      ⟨hworked, fun _ => rfl, rfl⟩
    dsimp only at hrun
    rw [hrun] at hrest
    constructor
    · rintro summary rfl
      exact ⟨text, hread, hrest.worked⟩
    · intro hrefused
      cases result with
      | ok summary => exact absurd hrest.refused hrefused
      | error e =>
        obtain ⟨before, m, rest, k, hmarks, hk, hr⟩ := hrest.resolve_left hrefused
        refine ⟨⟨e, rfl⟩, text, before, m, rest, hread, hmarks, ?_, ?_, ?_⟩
        · rw [hr.taken]
          omega
        · rw [hr.taken]
          omega
        · rw [hr.taken]
          exact hr.worked

/-- Three reports on two lines with the same branch: a dry run makes them all, and a mailbox that
takes two refuses the last one, which belongs to the second line. -/
theorem run_work_sample :
    let settings : Settings := { Settings.sample with checkoutBranches := true }
    let site : Site (Recorded × Mailbox) :=
      { resource := (.sample, { name := "box", refusal := some (2, "full") })
        files := .holding "m b\nm a\n" }
    (∃ summary after, (run settings { refresh := true, dryRun := true }).perform site =
        (.ok summary, after) ∧ summary.total = 3 ∧
      Recorded.sample.Worked 1 ["m", "m"] 3 3 after.resource.1) ∧
    ∃ e after, (run settings {}).perform site = (.error e, after) ∧
      Recorded.sample.Worked 0 ["m", "m"] 3 3 after.resource.1 := by
  intro settings site
  have hread : site.files.readText settings.stateFile = .ok "m b\nm a\n" := by cbv
  have hmarks : Watermarks.marksOf "m b\nm a\n" = [("m", "b"), ("m", "a")] := by cbv
  constructor
  · have hrun : (run settings { refresh := true, dryRun := true }).perform site.tallied =
        (.ok { branches := [⟨"m", "b", "c", 1⟩, ⟨"m", "a", "c", 2⟩], persisted := false },
          ((run settings { refresh := true, dryRun := true }).perform site.tallied).2) :=
      Prod.ext (by cbv) rfl
    obtain ⟨hplain, hok, -⟩ := run_work hrun
    obtain ⟨text, htext, hworked⟩ := hok _ rfl
    cases hread.symm.trans htext
    rw [hmarks] at hworked
    exact ⟨_, _, hplain, rfl, hworked⟩
  · have hrun : (run settings {}).perform site.tallied =
        (.error (.undelivered "box" "c" (.other "full")),
          ((run settings {}).perform site.tallied).2) := Prod.ext (by cbv) rfl
    obtain ⟨hplain, -, hrefused⟩ := run_work hrun
    have htaken : ((run settings {}).perform site.tallied).2.resource.2.taken = 2 := by cbv
    obtain ⟨-, text, before, m, rest, htext, hsplit, hle, hlt, hworked⟩ := hrefused (by cbv)
    cases hread.symm.trans htext
    rw [hmarks] at hsplit
    rw [htaken] at hle hlt hworked
    -- The first line has one new commit only, so it is the second one that is refused.
    have hfirst : Recorded.sample.news ("m", "b") = 1 := by cbv
    obtain _ | ⟨first, _ | ⟨second, more⟩⟩ := before
    · cases hsplit
      rw [List.map_nil, List.sum_nil, hfirst] at hlt
      omega
    · cases hsplit
      exact ⟨_, _, hplain, hworked⟩
    · simp at hsplit

end CommitReports
