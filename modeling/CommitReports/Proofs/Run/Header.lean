import CommitReports.Proofs.Action.Contract
import CommitReports.Proofs.Recorded.WellKept
import CommitReports.Proofs.Report.Header
import CommitReports.Proofs.Sink.Watched
import CommitReports.Proofs.Watermarks.Marks

/-!
# What a run hands to its sink

Each message that a run hands to its sink is the text of a report, from and to the
addresses of the settings and on a branch that the state file names; this holds of what
is refused, and of runs that fail, as well (`run_hands`). As the sink may be any one, it
is watched: the contract of each part of a run is about the list of the messages alone
(`Hands`).

The branch is a field of the state file, so it is on a line of its own in any case. The
header then stands where it should if and only if both addresses are on single lines
(`run_header`). Settings are not asked for that: an address with a line break in it is
accepted, and ends the header early (`header_broken`).
-/

namespace CommitReports

variable {ρ κ : Type} [History ρ] [Sink κ]

/-- The message on a commit is the text of a report, from and to these addresses, on one of some
branches. -/
def Reports (mail : Correspondence) (branches : String → Prop) (m : String × String) : Prop :=
  ∃ report : Report, report.sender = mail.sender ∧ report.recipient = mail.recipient ∧
    branches report.branch ∧ report.hash = m.1 ∧ m.2 = report.render

/-- All that a sink was handed are reports. -/
def Hands (mail : Correspondence) (branches : String → Prop) (watched : Watched κ) : Prop :=
  ∀ m ∈ watched.handed, Reports mail branches m

/-! ## The parts of a run -/

section Parts

variable {mail : Correspondence} {branches : String → Prop}

omit [History ρ] in
/-- An action may do anything. -/
theorem Action.meets_anything {α : Type} (act : Action ρ α) :
    act.Meets (fun _ _ => True) (fun _ => True) fun _ => True := by
  intro site _
  refine ⟨trivial, ?_⟩
  split <;> trivial

omit [History ρ] [Sink κ] in
/-- What an action on the history does is nothing to the sink. -/
theorem Action.Meets.besideSink {α : Type} {act : Action ρ α} {P : α → Prop}
    (h : act.Meets (fun _ _ => True) P fun _ => True) :
    (Action.onFirst act : Action (ρ × Watched κ) α).Meets (fun r _ => Hands mail branches r.2) P
      fun _ => True :=
  fun site hsite => ⟨hsite, (h { site with resource := site.resource.1 } trivial).2⟩

theorem Revision.lookup_meets (name : String) :
    (Revision.lookup name : Action ρ Revision).Meets (fun _ _ => True) (·.name = name)
      fun _ => True :=
  (Action.meets_anything _).bind fun _ _ => .pure rfl

theorem Branch.lookup_meets (name : String) :
    (Branch.lookup name : Action ρ Branch).Meets (fun _ _ => True) (·.name = name) fun _ => True :=
  (Revision.lookup_meets name).bind fun _ hrevision => .pure hrevision

theorem Branch.lookupLocal_meets (name : String) :
    (Branch.lookupLocal name : Action ρ Branch).Meets (fun _ _ => True) (·.name = name)
      fun _ => True := by
  refine (Branch.lookup_meets name).bind fun branch hbranch => ?_
  refine (Action.meets_anything (History.hasLocalBranch name)).bind fun isLocal _ => ?_
  cases isLocal with
  | true => exact .pure hbranch
  | false => exact .throw trivial

theorem Commit.lookup_meets (hash : String) (branch : Branch) :
    (Commit.lookup hash branch : Action ρ Commit).Meets (fun _ _ => True) (·.branch = branch)
      fun _ => True :=
  (Action.meets_anything (Revision.lookup hash)).bind fun _ _ => .pure rfl

/-- What is discovered is on the branch of the watermark. -/
theorem discover_meets (watermark : Commit) (checkout : Bool) :
    (discover watermark checkout : Action ρ (List Commit)).Meets (fun _ _ => True)
      (∀ commit ∈ ·, commit.branch = watermark.branch) fun _ => True := by
  have hlisted : (do
      let newest ← watermark.newCommitsSince watermark.branch
      let commits := newest.reverse
      Action.debug s!"{watermark.branch.name}: {commits.length} new commit(s) since {watermark.hash}"
      return commits : Action ρ (List Commit)).Meets (fun _ _ => True)
        (∀ commit ∈ ·, commit.branch = watermark.branch) fun _ => True := by
    refine ((Action.meets_anything _).bind fun hashes _ =>
      .mapM fun hash _ => Commit.lookup_meets hash _).bind fun newest hnewest => ?_
    exact (Action.Meets.say _).bind fun _ _ =>
      .pure fun commit hcommit => hnewest commit (List.mem_reverse.mp hcommit)
  cases checkout with
  | false => exact hlisted
  | true => exact (Action.meets_anything _).bind fun _ _ => hlisted

/-- The report on a commit says whom it is for and what it is about. -/
theorem Report.about_meets (commit : Commit) :
    (Report.about mail commit : Action ρ Report).Meets (fun _ _ => True)
      (fun report => report.sender = mail.sender ∧ report.recipient = mail.recipient ∧
        report.branch = commit.branch.name ∧ report.hash = commit.hash) fun _ => True :=
  (Action.meets_anything _).bind fun _ _ => (Action.meets_anything _).bind fun _ _ =>
    (Action.meets_anything _).bind fun _ _ => .pure ⟨rfl, rfl, rfl, rfl⟩

omit [History ρ] in
/-- A report that is handed to the sink is noted down, whether it is taken or not. -/
theorem handOver_meets (dryRun : Bool) {commit : Commit} {message : String}
    (h : Reports mail branches (commit.hash, message)) :
    (handOver dryRun commit message : Action (ρ × Watched κ) Unit).Meets
      (fun r _ => Hands mail branches r.2) (fun _ => True) fun _ => True := by
  cases dryRun with
  | true => exact (Action.Meets.say _).bind fun _ _ => .say _
  | false =>
    refine (Action.Meets.say _).bind fun _ _ => ?_
    intro site hsite
    rw [Action.perform_onSecond, Watched.perform_deliver]
    refine ⟨?_, by split <;> trivial⟩
    exact List.forall_mem_append.mpr ⟨hsite, List.forall_mem_singleton.mpr h⟩

/-- The reports on the new commits of a branch are on this branch. -/
theorem advance_meets {settings : Settings} (dryRun : Bool) {watermark : Commit}
    (h : branches watermark.branch.name) :
    (advance settings dryRun watermark : Action (ρ × Watched κ) Advance).Meets
      (fun r _ => Hands settings.correspondence branches r.2) (fun _ => True) fun _ => True := by
  refine (discover_meets watermark _).besideSink.bind fun commits hcommits => ?_
  refine (Action.Meets.forM fun commit hmem => ?_).bind fun _ _ => .pure trivial
  rw [dispatchCommit_eq]
  refine (Report.about_meets commit).besideSink.bind fun report hreport => ?_
  obtain ⟨hsender, hrecipient, hbranch, hhash⟩ := hreport
  rw [hcommits commit hmem] at hbranch
  exact handOver_meets dryRun ⟨report, hsender, hrecipient, hbranch ▸ h, hhash, rfl⟩

end Parts

/-! ## The branches of a state file -/

theorem Watermarks.verified_meets (localOnly : Bool) (branch hash : String) :
    (Watermarks.verified localOnly branch hash : Action ρ Commit).Meets (fun _ _ => True)
      (·.branch.name = branch) fun _ => True := by
  have hcommit : ∀ found : Branch, found.name = branch →
      (Commit.lookup hash found : Action ρ Commit).Meets (fun _ _ => True) (·.branch.name = branch)
        fun _ => True := fun found hfound =>
    (Action.meets_anything (Revision.lookup hash)).bind fun _ _ => .pure hfound
  cases localOnly with
  | false => exact (Branch.lookup_meets branch).bind hcommit
  | true => exact (Branch.lookupLocal_meets branch).bind hcommit

theorem Watermarks.readLines_meets (path : String) (localOnly : Bool) :
    ∀ (lines : List String) (number : Nat),
      (Watermarks.readLines path localOnly number lines : Action ρ (List Commit)).Meets
        (fun _ _ => True) (∀ w ∈ ·, Text.IsField w.branch.name) fun _ => True := by
  intro lines
  induction lines with
  | nil => exact fun _ => .pure nofun
  | cons line rest ih =>
    intro number
    rw [Watermarks.readLines]
    cases hread : Line.read line with
    | blank => exact ih _
    | malformed => exact .throw trivial
    | mark branch hash =>
      refine (verified_meets localOnly branch hash).bind fun w hw => (ih _).bind fun more hmore => .pure ?_
      exact List.forall_mem_cons.mpr ⟨hw ▸ (Line.read_eq_mark hread).1, hmore⟩

theorem prepare_meets (settings : Settings) (options : RunOptions) :
    (prepare settings options : Action ρ (List Commit)).Meets (fun _ _ => True)
      (∀ w ∈ ·, Text.IsField w.branch.name) fun _ => True := by
  have hload : (Watermarks.load settings.stateFile settings.checkoutBranches :
      Action ρ (List Commit)).Meets (fun _ _ => True)
        (∀ w ∈ ·, Text.IsField w.branch.name) fun _ => True := by
    refine (Action.meets_anything Action.files).bind fun files _ => ?_
    split
    next => exact .throw trivial
    next =>
      exact (Watermarks.readLines_meets _ _ _ _).bind fun watermarks hwatermarks =>
        (Action.Meets.say _).bind fun _ _ => .pure hwatermarks
  unfold prepare
  split
  next => exact (Action.Meets.say _).bind fun _ _ => (Action.meets_anything _).bind fun _ _ => hload
  next => exact hload

/-! ## Whole runs -/

/-- **All that a run hands to its sink are reports** on the branches of the watermarks that it has
loaded, whether they are taken or not, and however the run ends. -/
theorem run_hands (settings : Settings) (options : RunOptions) (site : Site (ρ × κ)) :
    ∀ m ∈ ((run settings options).perform site.watched).2.handed, ∃ watermarks,
      ((prepare settings options).perform { site with resource := site.resource.1 }).1 =
        .ok watermarks ∧
      Reports settings.correspondence (fun branch => ∃ w ∈ watermarks, w.branch.name = branch) m := by
  intro m hm
  rw [run, Action.perform_bind, Action.perform_onFirst] at hm
  rcases hprepare : (prepare settings options : Action ρ (List Commit)).perform
    { site with resource := site.resource.1 } with ⟨⟨e⟩ | ⟨watermarks⟩, loaded⟩
  · simp only [Site.watched, hprepare, Site.handed] at hm
    exact absurd hm List.not_mem_nil
  · simp only [Site.watched, hprepare] at hm
    refine ⟨watermarks, rfl, ?_⟩
    have hmeets : (do
        let advances ← watermarks.mapM (advance settings options.dryRun)
        conclude settings options.dryRun advances : Action (ρ × Watched κ) Summary).Meets
        (fun r _ => Hands settings.correspondence
          (fun branch => ∃ w ∈ watermarks, w.branch.name = branch) r.2)
        (fun _ => True) fun _ => True := by
      refine (Action.Meets.mapM fun w hw => advance_meets options.dryRun ⟨w, hw, rfl⟩).bind
        fun advances _ => ?_
      rw [← onFirst_conclude]
      exact (Action.meets_anything _).besideSink
    refine (hmeets _ ?_).1 m hm
    intro handed hnone
    cases hnone

/-- **Where the header stands in what a run hands to its sink.** Watching the sink changes nothing.
The branch of each message is one that the state file names; and its first six lines are the header
and an empty line if and only if both addresses are on single lines, provided that the hash is. -/
theorem run_header (settings : Settings) (options : RunOptions) (site : Site (ρ × κ)) :
    (run settings options).perform site =
      (((run settings options).perform site.watched).1,
        Watched.forgetSecond ((run settings options).perform site.watched).2) ∧
    ∀ commit message, (commit, message) ∈ ((run settings options).perform site.watched).2.handed →
      (∀ c ∈ commit.toList, c ≠ '\n' ∧ c ≠ '\r') → ∃ watermarks, ∃ w ∈ watermarks,
        ((prepare settings options).perform { site with resource := site.resource.1 }).1 =
          .ok watermarks ∧
        ((Text.linesOf message).take 6 =
            ["From: " ++ settings.sender, "To: " ++ settings.recipient, "Content-type: text/plain",
              "Subject: " ++ w.branch.name ++ " " ++ commit, "Branch: " ++ w.branch.name, ""] ↔
          Text.IsLine settings.sender ∧ Text.IsLine settings.recipient) := by
  refine ⟨Watched.perform_run settings options site.watched, fun commit message hmem hcommit => ?_⟩
  obtain ⟨watermarks, hprepare, report, hsender, hrecipient, ⟨w, hw, hbranch⟩, hhash, hmessage⟩ :=
    run_hands settings options site _ hmem
  obtain ⟨-, hfields⟩ := prepare_meets settings options { site with resource := site.resource.1 } trivial
  rw [hprepare] at hfields
  obtain rfl : report.hash = commit := hhash
  obtain rfl : message = report.render := hmessage
  have hheader := Report.header_iff (hbranch ▸ (hfields w hw).isLine)
  have hlines : report.headerLines ++ [""] =
      ["From: " ++ settings.sender, "To: " ++ settings.recipient, "Content-type: text/plain",
        "Subject: " ++ w.branch.name ++ " " ++ report.hash, "Branch: " ++ w.branch.name, ""] := by
    rw [Report.headerLines, hsender, hrecipient, hbranch]
    rfl
  refine ⟨watermarks, w, hw, hprepare, ?_⟩
  have hline : Text.IsLine report.hash := .of_noEnds hcommit
  rw [← hlines, hheader, hsender, hrecipient, and_iff_left hline]
  rfl

/-- With addresses on single lines, the header of each message is where it should be. -/
theorem run_header_sample :
    let site : Site (Recorded × Mailbox) :=
      { resource := (.sample, { name := "box" }), files := .sample }
    ((run .sample {}).perform site.watched).2.handed.map Prod.fst = ["b", "c"] ∧
    ∀ m ∈ ((run .sample {}).perform site.watched).2.handed, (Text.linesOf m.2).take 6 =
      ["From: from", "To: to", "Content-type: text/plain", "Subject: m " ++ m.1, "Branch: m", ""] := by
  intro site
  have hcommits : ((run .sample {}).perform site.watched).2.handed.map Prod.fst = ["b", "c"] := by cbv
  refine ⟨hcommits, fun m hm => ?_⟩
  have hnoEnds : ∀ c ∈ m.1.toList, c ≠ '\n' ∧ c ≠ '\r' := by
    have hmem : m.1 ∈ ["b", "c"] := hcommits ▸ List.mem_map_of_mem hm
    rcases List.mem_pair.mp hmem with hb | hc
    · simp [hb]
    · simp [hc]
  obtain ⟨watermarks, w, hw, hprepare, hheader⟩ := (run_header .sample {} site).2 m.1 m.2 hm hnoEnds
  have hloaded : ((prepare .sample {}).perform { site with resource := site.resource.1 }).1 =
      .ok [{ hash := "a", branch := ⟨⟨"m"⟩⟩ }] := by cbv
  obtain rfl : [_] = watermarks := Except.ok.inj (hloaded.symm.trans hprepare)
  obtain rfl := List.mem_singleton.mp hw
  exact hheader.mpr ⟨.of_noEnds (by simp [Settings.sample]), .of_noEnds (by simp [Settings.sample])⟩

/-- The settings with a line break in an address. -/
def Settings.broken : Settings :=
  { sender := "a@b\nBcc: c@d\n", recipient := "e@f", stateFile := "/state" }

/-- A text that gives these settings. -/
def Settings.brokenText : String :=
  "sender = \"a@b\\nBcc: c@d\\n\"\nrecipient = \"e@f\"\nstate_file = \"/state\"\n"

theorem Settings.parse_brokenText : parse brokenText = .ok broken := by
  have hparse : Toml.parse? brokenText = some [("sender", .string broken.sender),
      ("recipient", .string broken.recipient), ("state_file", .string broken.stateFile)] := by
    cbv
  have hcommand : Text.allBlank "sendmail -t" = false := by decide
  have hremote : Text.allBlank "origin" = false := by decide
  rw [parse, hparse]
  simp [broken, ofEntries, gather, textAt, flagAt, typeFault, fieldTypes, FieldType.fits,
    List.lookup, fault, hcommand, hremote]

set_option maxRecDepth 2048 in
/-- **Settings with a line break in an address are accepted**, and a run with them ends the header
of its report before it names the recipient. -/
theorem header_broken :
    let site : Site (Recorded × Mailbox) :=
      { resource := (.sample, { name := "box" }), files := .holding "m b\n" }
    Settings.parse Settings.brokenText = .ok .broken ∧
    ((run .broken {}).perform site.watched).2.handed.map (fun m => (Text.linesOf m.2).take 4) =
      [["From: a@b", "Bcc: c@d", "", "To: e@f"]] := by
  intro site
  exact ⟨Settings.parse_brokenText, by cbv⟩

end CommitReports
