import CommitReports.Mail
import CommitReports.Proofs.Action.Contract
import CommitReports.Proofs.Graph.Listing
import CommitReports.Proofs.History.Logged
import CommitReports.Proofs.Recorded.Consistent
import CommitReports.Proofs.Recorded.WellKept
import CommitReports.Proofs.Run.Questions
import CommitReports.Proofs.Watermarks.RoundTrip

/-!
# Verification at load is enough

Once the watermarks of a run are loaded, the history answers all that it is asked
(`run_verified`), if every recorded parent is itself recorded (`Recorded.Closed`). The
questions go from what was verified to what the history itself has named:

- a branch and a hash of the state file have resolved and, if branches are shown in the
  working tree, a branch that is none was rejected;
- the hashes that are listed are recorded, and so are their parents, and what is recorded
  resolves, if only as a branch of the same name.

So only a delivery and the saving can fail, and in a dry run nothing can. The history is
watched to tell what it is asked: `OnlyAnswered` says of the questions since the loading
that each one is answered, and every part of the run keeps this.
-/

namespace CommitReports

/-! ## Sinks -/

/-- A failed delivery says that the report could not be handed over. -/
def Sink.Transports (κ : Type) [Sink κ] : Prop :=
  ∀ commit message, (Sink.deliver commit message : Action κ Unit).Meets (fun _ _ => True)
    (fun _ => True) fun e => ∃ command cause, e = .undelivered command commit cause

theorem Mailbox.transports : Sink.Transports Mailbox := by
  intro commit message site _
  refine ⟨trivial, ?_⟩
  simp only [Sink.deliver, deliver, Action.perform_bind, Action.perform_resource]
  rcases site.resource.refusal with _ | ⟨_ | n, reason⟩
  · trivial
  · exact ⟨_, _, rfl⟩
  · trivial

theorem MailCommand.transports : Sink.Transports MailCommand := by
  intro commit message
  show (MailCommand.deliver commit message).Meets _ _ _
  refine Action.Meets.bind (P := fun _ => True) (fun _ _ => ⟨trivial, trivial⟩) fun box _ => ?_
  refine (Action.Meets.say _).bind fun _ _ => .when (fun _ => .throw ⟨_, _, rfl⟩) ?_
  refine Action.Meets.bind (P := fun _ => True) (fun _ _ => ⟨trivial, trivial⟩) fun files _ => ?_
  refine Action.Meets.bind (P := fun _ => True) (fun _ _ => ⟨trivial, trivial⟩) fun _ _ => ?_
  refine .when (fun _ => .say _) (.when (fun _ => .throw ⟨_, _, rfl⟩) ?_)
  split
  next => exact .say _
  next => exact .pure trivial

namespace Recorded

variable {h : Recorded}

/-! ## What is recorded -/

/-- Each commit of the order has a record of its parents. -/
def Indexed (h : Recorded) : Prop := ∀ hash ∈ h.order, hash ∈ h.parents.nodes

/-- Every recorded parent is itself recorded. Commits may be recorded again, in any order and in
circles, and branches may have any name and point anywhere. -/
def Closed (h : Recorded) : Prop :=
  ∀ hash ∈ h.parents.nodes, ∀ parent ∈ h.parents.parentsOf hash, parent ∈ h.parents.nodes

instance : DecidablePred Closed := fun h =>
  inferInstanceAs (Decidable (∀ hash ∈ h.parents.nodes, ∀ parent ∈ h.parents.parentsOf hash,
    parent ∈ h.parents.nodes))

theorem Indexed.empty : Indexed {} := nofun

theorem Indexed.commit (hi : h.Indexed) (hash : String) (parents : List String) :
    (h.commit hash parents).Indexed := by
  intro x hx
  rcases List.mem_append.mp hx with hx | hx
  · exact List.mem_cons_of_mem _ (hi x hx)
  · rw [List.mem_singleton.mp hx]
    exact List.mem_cons_self

theorem Indexed.branch (hi : h.Indexed) (name tip : String) : (h.branch name tip).Indexed := hi

/-- What is recorded resolves. -/
theorem exists_found {hash : String} (hhash : hash ∈ h.parents.nodes) :
    ∃ target, h.found hash = .ok target := by
  cases hbranch : h.branches.lookup hash with
  | some tip => exact ⟨tip, found_eq_ok_iff.mpr (.inl hbranch)⟩
  | none => exact ⟨hash, found_eq_ok_iff.mpr (.inr ⟨hbranch, hhash, rfl⟩)⟩

theorem exists_whatChanged {name target : String} (hfound : h.found name = .ok target) :
    ∃ text, h.answers.whatChanged name = .ok text := by
  simp only [answers, hfound]
  exact ⟨_, rfl⟩

theorem parent_of_found {name target : String} (hfound : h.found name = .ok target) :
    h.answers.parent name = .ok (h.parents.parentsOf target).head? := by
  simp only [answers, hfound]
  rfl

/-- A patch can be made from nothing, and from what is recorded. -/
theorem exists_diff {base : Option String} {name target : String}
    (hbase : ∀ hash, base = some hash → hash ∈ h.parents.nodes)
    (hfound : h.found name = .ok target) : ∃ text, h.answers.diff base name = .ok text := by
  cases base with
  | none =>
    simp only [answers, hfound]
    exact ⟨_, rfl⟩
  | some hash =>
    obtain ⟨start, hstart⟩ := exists_found (hbase hash rfl)
    simp only [answers, hfound, hstart]
    exact ⟨_, rfl⟩

/-- The first parent of a commit is recorded, whether or not the commit is. -/
theorem mem_nodes_of_first (hclosed : h.Closed) {hash parent : String}
    (hparent : (h.parents.parentsOf hash).head? = some parent) : parent ∈ h.parents.nodes := by
  have hmem := List.mem_of_mem_head? hparent
  exact hclosed hash (Graph.mem_nodes_of_parent hmem) parent hmem

/-! ## What is asked -/

/-- A history with the same records answers the question, wherever it is asked. -/
def Succeeds (h : Recorded) (q : Question) : Prop :=
  ∀ site : Site Recorded, h.Alike site.resource → (q.ask.perform site).1 = .ok ()

/-- The history has the same records, and what it was asked since is answered. -/
def OnlyAnswered (h : Recorded) (before : List Question) (logged : Logged Recorded) (_ : Files) :
    Prop :=
  h.Alike logged.history ∧
    ∃ asked, logged.asked = before ++ asked ∧ ∀ q ∈ asked, h.Succeeds q

variable {before : List Question}

/-- A question that is answered may be asked. -/
theorem answered_asking {α : Type} {q : Question} {act : Action Recorded α} {a : α}
    (hq : (q.ask : Action Recorded Unit) = act >>= fun _ => pure ())
    (hact : act.Settled (fun now _ => h.Alike now) (.ok a)) :
    (Logged.asking q act).Settled (h.OnlyAnswered before) (.ok a) := by
  have hsucceeds : h.Succeeds q := by
    intro site hsite
    rw [hq]
    exact (hact.bind_ok (.pure ()) site hsite).1
  rintro site ⟨halike, asked, hasked, hanswered⟩
  obtain ⟨hresult, hkept⟩ := hact { site with resource := site.resource.history } halike
  rw [Logged.perform_asking]
  refine ⟨hresult, hkept, asked ++ [q], ?_, ?_⟩
  · rw [← List.append_assoc, ← hasked]
  · rw [List.forall_mem_append]
    exact ⟨hanswered, by simpa using hsucceeds⟩

/-- The listing between two names that resolve is answered, and what it names is recorded. -/
theorem commitsBetween_meets (hindexed : h.Indexed) {E : Failure → Prop} {since upto : String}
    (hsince : ∃ target, h.found since = .ok target) (hupto : ∃ target, h.found upto = .ok target) :
    (History.commitsBetween since upto : Action (Logged Recorded) (List String)).Meets
      (h.OnlyAnswered before) (∀ hash ∈ ·, hash ∈ h.parents.nodes) E := by
  obtain ⟨first, hsince⟩ := hsince
  obtain ⟨last, hupto⟩ := hupto
  have hlisted : h.answers.commitsBetween since upto = .ok (h.between first last) := by
    simp only [answers, hsince, hupto]
    rfl
  refine (answered_asking rfl (hlisted ▸ h.hold_anywhere.commitsBetween since upto)).meets ?_
  exact fun hash hmem => hindexed hash (mem_between.mp hmem).1

/-- What is recorded can be looked up as a commit. -/
theorem lookup_meets {E : Failure → Prop} {hash : String} (hhash : hash ∈ h.parents.nodes)
    (branch : Branch) :
    (Commit.lookup hash branch : Action (Logged Recorded) Commit).Meets
      (h.OnlyAnswered before) (·.hash ∈ h.parents.nodes) E := by
  obtain ⟨target, hfound⟩ := exists_found hhash
  have hresolve : (History.resolve hash : Action (Logged Recorded) String).Settled
      (h.OnlyAnswered before) (.ok target) :=
    answered_asking rfl (hfound ▸ h.hold_anywhere.resolve hash)
  have hverify : (Revision.verify ⟨hash⟩ : Action (Logged Recorded) Unit).Settled
      (h.OnlyAnswered before) (.ok ()) := hresolve.bind_ok (.pure ())
  have hrevision : (Revision.lookup hash : Action (Logged Recorded) Revision).Settled
      (h.OnlyAnswered before) (.ok ⟨hash⟩) := hverify.bind_ok (.pure _)
  exact hrevision.bind_meets (.pure hhash)

/-- Discovery from a watermark that was verified does not fail, and what it finds is recorded. -/
theorem discover_meets (hindexed : h.Indexed) {E : Failure → Prop} {m : String × String}
    {checkout : Bool} (hverifies : h.answers.names.Verifies checkout m) :
    (discover (Watermarks.ofMark m) checkout : Action (Logged Recorded) (List Commit)).Meets
      (h.OnlyAnswered before) (∀ c ∈ ·, c.hash ∈ h.parents.nodes) E := by
  have hlisted : (do
      let newest ← (Watermarks.ofMark m).newCommitsSince (Watermarks.ofMark m).branch
      let commits := newest.reverse
      Action.debug s!"{(Watermarks.ofMark m).branch.name}: {commits.length} new commit(s) since {(Watermarks.ofMark m).hash}"
      return commits : Action (Logged Recorded) (List Commit)).Meets
        (h.OnlyAnswered before) (∀ c ∈ ·, c.hash ∈ h.parents.nodes) E := by
    refine ((commitsBetween_meets hindexed hverifies.hash hverifies.branch).bind fun hashes hhashes =>
      .mapM fun hash hmem => lookup_meets (hhashes hash hmem) _).bind fun newest hnewest => ?_
    exact (Action.Meets.say _).bind fun _ _ =>
      .pure fun c hc => hnewest c (List.mem_reverse.mp hc)
  cases checkout with
  | false => exact hlisted
  | true =>
    -- A name that is that of a branch can be shown.
    have hshown : h.answers.checkout m.1 = .ok () := by
      have hlocal := Except.ok.inj (hverifies.isLocal rfl)
      simp [answers, Option.isNone_eq_false_iff.mpr hlocal]
    exact (answered_asking bind_pure_unit.symm
      (hshown ▸ h.hold_anywhere.checkout m.1)).bind_meets hlisted

/-- The report on a recorded commit can be made. -/
theorem about_meets (hclosed : h.Closed) {E : Failure → Prop} (mail : Correspondence)
    {commit : Commit} (hcommit : commit.hash ∈ h.parents.nodes) :
    (Report.about mail commit : Action (Logged Recorded) Report).Meets
      (h.OnlyAnswered before) (fun _ => True) E := by
  obtain ⟨target, hfound⟩ := exists_found hcommit
  obtain ⟨text, hsummary⟩ := exists_whatChanged hfound
  have hbase : (Commit.patchBase commit.hash : Action (Logged Recorded) (Option String)).Meets
      (h.OnlyAnswered before) (fun base => ∀ hash, base = some hash → hash ∈ h.parents.nodes) E := by
    have hparent := parent_of_found hfound ▸ h.hold_anywhere.parent commit.hash
    exact .tryCatch ((answered_asking rfl hparent).meets fun hash hfirst =>
      mem_nodes_of_first hclosed hfirst)
  refine (answered_asking rfl (hsummary ▸ h.hold_anywhere.whatChanged _)).bind_meets ?_
  refine hbase.bind fun base hbase => ?_
  obtain ⟨patch, hdiff⟩ := exists_diff hbase hfound
  exact (answered_asking rfl (hdiff ▸ h.hold_anywhere.diff _ _)).bind_meets (.pure trivial)

/-! ## What a run asks -/

variable {κ : Type} [Sink κ] {E : Failure → Prop}

/-- Reporting on a watermark that was verified fails only where a delivery does. -/
theorem advance_meets (hindexed : h.Indexed) (hclosed : h.Closed) {settings : Settings}
    {dryRun : Bool} {m : String × String}
    (hverifies : h.answers.names.Verifies settings.checkoutBranches m)
    (hdeliver : dryRun = false → ∀ commit message, (Sink.deliver commit message : Action κ Unit).Meets
      (fun _ _ => True) (fun _ => True) E) :
    (advance settings dryRun (Watermarks.ofMark m) : Action (Logged Recorded × κ) Advance).Meets
      (fun r d => h.OnlyAnswered before r.1 d) (fun _ => True) E := by
  refine (discover_meets hindexed hverifies).onFirst.bind fun commits hcommits => ?_
  refine (Action.Meets.forM fun commit hmem => ?_).bind fun _ _ => .pure trivial
  rw [dispatchCommit_eq]
  refine (about_meets hclosed _ (hcommits commit hmem)).onFirst.bind fun report _ => ?_
  cases dryRun with
  | true => exact (Action.Meets.say _).bind fun _ _ => .say _
  | false =>
    exact (Action.Meets.say _).bind fun _ _ => .onSecond (fun _ _ _ hkept => hkept) (hdeliver rfl _ _)

omit [Sink κ] in
/-- The end of a run fails only where the saving does. -/
theorem conclude_meets {settings : Settings} {dryRun : Bool} (advances : List Advance)
    (hsave : dryRun = false → ∀ watermarks (site : Site (Logged Recorded × κ)) place cause,
      ((Watermarks.save settings.stateFile watermarks).perform site).1 =
        .error (.inaccessible place cause) → E (.inaccessible place cause)) :
    (conclude settings dryRun advances : Action (Logged Recorded × κ) Summary).Meets
      (fun r d => h.OnlyAnswered before r.1 d) (fun _ => True) E := by
  cases dryRun with
  | true => exact (Action.Meets.say _).bind fun _ _ => .pure trivial
  | false =>
    refine Action.Meets.bind (P := fun _ => True) (fun site hsite => ?_) fun _ _ => .pure trivial
    have hfails := hsave rfl (advances.map (·.current)) site
    rw [Watermarks.perform_save] at hfails ⊢
    split at hfails
    next place cause files _ => exact ⟨hsite, hfails place cause rfl⟩
    next => exact ⟨hsite, trivial⟩

/-- What follows the loading fails only where a delivery or the saving does. -/
theorem afterLoading_meets (hindexed : h.Indexed) (hclosed : h.Closed) {settings : Settings}
    {dryRun : Bool} {marks : List (String × String)}
    (hverifies : ∀ m ∈ marks, h.answers.names.Verifies settings.checkoutBranches m)
    (hdeliver : dryRun = false → ∀ commit message, (Sink.deliver commit message : Action κ Unit).Meets
      (fun _ _ => True) (fun _ => True) E)
    (hsave : dryRun = false → ∀ watermarks (site : Site (Logged Recorded × κ)) place cause,
      ((Watermarks.save settings.stateFile watermarks).perform site).1 =
        .error (.inaccessible place cause) → E (.inaccessible place cause)) :
    ((marks.map Watermarks.ofMark).mapM (advance settings dryRun) >>= conclude settings dryRun :
        Action (Logged Recorded × κ) Summary).Meets
      (fun r d => h.OnlyAnswered before r.1 d) (fun _ => True) E := by
  refine (Action.Meets.mapM (Q := fun _ => True) fun watermark hmem => ?_).bind fun advances _ =>
    conclude_meets advances hsave
  obtain ⟨m, hm, rfl⟩ := List.mem_map.mp hmem
  exact advance_meets hindexed hclosed (hverifies m hm) hdeliver

end Recorded

variable {κ : Type} [Sink κ]

/-- A failure on the way out: a report could not be handed over, or reached watermarks could not be
saved. -/
def Failure.Outbound (ρ : Type) (settings : Settings) (e : Failure) : Prop :=
  (∃ command commit cause, e = .undelivered command commit cause) ∨
  ∃ place cause, e = .inaccessible place cause ∧ ∃ reached, ∃ site : Site ρ,
    ((Watermarks.save settings.stateFile reached).perform site).1 = .error e

/-- **Once the watermarks are loaded, the history answers all that it is asked.** So a dry run does
not fail, and any other run only on the way out. -/
theorem run_verified {settings : Settings} {options : RunOptions}
    {site loaded after : Site (Logged Recorded × κ)} {watermarks : List Commit}
    {result : Except Failure Summary} (hindexed : site.resource.1.history.Indexed)
    (hclosed : site.resource.1.history.Closed)
    (hload : (Action.onFirst (prepare settings options)).perform site = (.ok watermarks, loaded))
    (hrun : (run settings options).perform site = (result, after)) :
    (site.resource.1.history.Alike after.resource.1.history ∧
      ∃ asked, after.resource.1.asked = loaded.resource.1.asked ++ asked ∧
        ∀ q ∈ asked, site.resource.1.history.Succeeds q) ∧
    (options.dryRun = true → ∃ summary, result = .ok summary) ∧
    (Sink.Transports κ → ∀ e, result = .error e → e.Outbound (Logged Recorded × κ) settings) := by
  -- What was loaded has been verified.
  have hprepare := ((Logged.hold (Recorded.hold site.resource.1.history site.files)).prepared options
    fun _ _ hsite => congrArg (·.readText settings.stateFile) hsite.2).onFirst
      (L := fun _ : κ => True)
  obtain ⟨hprepared, ⟨halike, -⟩, -⟩ := hprepare site ⟨⟨.refl _, rfl⟩, trivial⟩
  rw [hload] at hprepared halike
  obtain ⟨text, -, haccepted, rfl⟩ :=
    Names.loaded_eq_ok_iff.mp (Answers.prepared_eq_ok_iff.mp hprepared.symm).2
  have hverifies := fun m hm => (Watermarks.verifies_of_accepts haccepted m hm).2
  -- What is left may fail where a report is handed over, and where the watermarks are saved.
  have hdeliver : options.dryRun = false → ∀ commit message,
      (Sink.deliver commit message : Action κ Unit).Meets (fun _ _ => True) (fun _ => True) fun e =>
        options.dryRun = false ∧ (Sink.Transports κ → e.Outbound (Logged Recorded × κ) settings) := by
    intro hreal commit message place _
    refine ⟨trivial, ?_⟩
    split
    next => trivial
    next e hfails =>
      refine ⟨hreal, fun htransports => .inl ?_⟩
      have hundelivered := (htransports commit message place trivial).2
      rw [hfails] at hundelivered
      obtain ⟨command, cause, rfl⟩ := hundelivered
      exact ⟨command, commit, cause, rfl⟩
  unfold run at hrun
  rw [Action.perform_bind, hload] at hrun
  simp only at hrun
  obtain ⟨hanswered, houtcome⟩ := Recorded.afterLoading_meets hindexed hclosed hverifies hdeliver
    (fun hreal reached last place cause hfails =>
      ⟨hreal, fun _ => .inr ⟨place, cause, rfl, reached, last, hfails⟩⟩)
    loaded ⟨halike, [], (List.append_nil _).symm, nofun⟩
  rw [hrun] at hanswered houtcome
  refine ⟨hanswered, fun hdry => ?_, fun htransports e he => ?_⟩
  · cases result with
    | error e => exact nomatch hdry.symm.trans houtcome.1
    | ok summary => exact ⟨summary, rfl⟩
  · subst he
    exact houtcome.2 htransports

/-- Two commits that are each other's parents, one on top of them, and a branch that is named like
one of the two. -/
def Recorded.tangled : Recorded :=
  ((((({} : Recorded).commit "a" ["b"]).commit "b" ["a"]).commit "c" ["a"]).branch "m" "c").branch
    "a" "c"

/-- All that a run over the tangled history asks after the loading is answered, and it fails because
its mailbox takes nothing. -/
theorem run_verified_tangled :
    let settings : Settings := { Settings.sample with checkoutBranches := true }
    let site : Site (Logged Recorded × Mailbox) :=
      { resource := ({ history := .tangled }, { name := "box", refusal := some (0, "full") })
        files := .holding "m b\n" }
    ∃ watermarks loaded after, (Action.onFirst (prepare settings {})).perform site = (.ok watermarks, loaded) ∧
      (run settings {}).perform site = (.error (.undelivered "box" "c" (.other "full")), after) ∧
      Recorded.tangled.Alike after.resource.1.history ∧
      (∀ q ∈ [.checkout "m", .commitsBetween "b" "m", .resolve "c", .whatChanged "c", .parent "c",
        .diff (some "a") "c"], Recorded.tangled.Succeeds q) ∧
      Failure.Outbound (Logged Recorded × Mailbox) settings
        (.undelivered "box" "c" (.other "full")) := by
  intro settings site
  have hindexed : Recorded.tangled.Indexed :=
    ((((Recorded.Indexed.empty.commit _ _).commit _ _).commit _ _).branch _ _).branch _ _
  have hclosed : Recorded.tangled.Closed := by decide
  have hload : (Action.onFirst (prepare settings {})).perform site =
      (.ok [{ hash := "b", branch := ⟨⟨"m"⟩⟩ }],
        ((Action.onFirst (prepare settings {})).perform site).2) := Prod.ext (by cbv) rfl
  have hrun : (run settings {}).perform site =
      (.error (.undelivered "box" "c" (.other "full")), ((run settings {}).perform site).2) :=
    Prod.ext (by cbv) rfl
  obtain ⟨⟨halike, asked, hasked, hanswered⟩, -, hfailure⟩ := run_verified hindexed hclosed hload hrun
  have hsame : asked = [.checkout "m", .commitsBetween "b" "m", .resolve "c", .whatChanged "c",
      .parent "c", .diff (some "a") "c"] := List.append_cancel_left (hasked.symm.trans (by cbv))
  exact ⟨_, _, _, hload, hrun, halike, hsame ▸ hanswered, hfailure Mailbox.transports _ rfl⟩

end CommitReports
