import CommitReports.Commit
import CommitReports.Sink

/-!
# Reports

A report holds everything that is said about one commit. `Report.render` writes
it as a plain text mail: five header lines, an empty line, and the two texts of
the body with an empty line between them. `dispatch` makes the report of a commit
and hands it to a sink or, in a dry run, only says that it would.
-/

namespace CommitReports

/-- Everything that is said about one commit. -/
structure Report where
  sender : String
  recipient : String
  branch : String
  hash : String
  whatChanged : String
  diff : String
  deriving DecidableEq, Repr

namespace Report

/-- The lines of the header, without their ends. -/
def headerLines (r : Report) : List String :=
  ["From: " ++ r.sender, "To: " ++ r.recipient, "Content-type: text/plain",
    "Subject: " ++ r.branch ++ " " ++ r.hash, "Branch: " ++ r.branch]

/-- The text after the header and the empty line that ends it. -/
def body (r : Report) : String := r.whatChanged ++ "\n\n" ++ r.diff

/-- The report as a plain text mail. -/
def render (r : Report) : String :=
  String.join (r.headerLines.map (· ++ "\n")) ++ "\n" ++ r.body

end Report

/-- Who sends the reports of a run, and to whom. -/
structure Correspondence where
  sender : String
  recipient : String
  deriving DecidableEq, Repr

open Commit.Handle

variable {ρ κ : Type} [History ρ] [Sink κ]

/-- The report on the handle's commit. -/
def Report.compose (mail : Correspondence) : Query ρ Report := do
  let commit ← theCommit
  let whatChanged ← Commit.Handle.whatChanged
  let diff ← Commit.Handle.diff
  return { sender := mail.sender, recipient := mail.recipient, branch := commit.branch.name,
           hash := commit.hash, whatChanged, diff }

/-- A query on the first of two resources. -/
def Commit.Handle.onFirst {τ α : Type} (query : Query ρ α) : Query (ρ × τ) α :=
  ExceptT.mk fun handle => fun site =>
    let ((result, handle), inner) :=
      Commit.Handle.perform query handle { site with resource := site.resource.1 }
    ((result, handle), { inner with resource := (inner.resource, site.resource.2) })

omit [History ρ] in
theorem Commit.Handle.perform_onFirst {τ α : Type} (query : Query ρ α) (handle : Commit.Handle)
    (site : Site (ρ × τ)) :
    Commit.Handle.perform (Commit.Handle.onFirst query : Query (ρ × τ) α) handle site =
      let after := Commit.Handle.perform query handle { site with resource := site.resource.1 }
      (after.1, { after.2 with resource := (after.2.resource, site.resource.2) }) := rfl

/-- Makes the report on the handle's commit and delivers it; a dry run delivers nothing. -/
def dispatch (mail : Correspondence) (dryRun : Bool) : Query (ρ × κ) Unit := do
  let report ← Commit.Handle.onFirst (Report.compose mail)
  let message := report.render
  let commit ← theCommit
  if dryRun then
    ask (Action.print [(none, "  "), (some .yellow, "○"), (none, " "), (some .cyan, commit.line),
      (none, " "), (some .dimmed, "(dry run)")])
    ask (Action.debug s!"skipped {message.utf8ByteSize} byte report for {commit.line}")
  else
    ask (Action.print [(none, "  "), (some .green, "→"), (none, " "), (some .cyan, commit.line)])
    ask (Action.onSecond (Sink.deliver commit.hash message))

/-- Makes and delivers the report on a commit that nothing is known about yet. -/
def dispatchCommit (mail : Correspondence) (dryRun : Bool) (commit : Commit) :
    Action (ρ × κ) Unit :=
  ExceptT.mk do
    let (result, _) ← (dispatch mail dryRun).run.run { commit }
    return result

end CommitReports
