import CommitReports.Proofs.Run.Simulation

/-!
# Sinks that are watched

A watched sink is a sink with the list of all that was handed to it, taken or not. Each
message is noted down and passed on, so watching a sink changes nothing in a run
(`Watched.perform_run`).
-/

namespace CommitReports

/-- A sink, with the commits and messages that were handed to it, in order. -/
structure Watched (κ : Type) where
  sink : κ
  handed : List (String × String) := []

variable {ρ κ : Type}

/-- The same site with a sink that is watched from now on. -/
def Site.watched (site : Site (ρ × κ)) : Site (ρ × Watched κ) :=
  { site with resource := (site.resource.1, { sink := site.resource.2 }) }

/-- The messages that were handed to the sink of a site, with their commits. -/
def Site.handed (site : Site (ρ × Watched κ)) : List (String × String) := site.resource.2.handed

namespace Watched

variable [Sink κ]

/-- Notes a message down and passes it on. -/
def deliver (commit message : String) : Action (Watched κ) Unit := do
  Action.change fun watched => { watched with handed := watched.handed ++ [(commit, message)] }
  Action.zoom (·.sink) (fun sink watched => { watched with sink }) (Sink.deliver commit message)

instance : Sink (Watched κ) := ⟨deliver⟩

theorem perform_deliver (commit message : String) (site : Site (Watched κ)) :
    (Sink.deliver commit message : Action (Watched κ) Unit).perform site =
      let after := (Sink.deliver commit message : Action κ Unit).perform
        { site with resource := site.resource.sink }
      (after.1, { after.2 with resource :=
        { sink := after.2.resource, handed := site.resource.handed ++ [(commit, message)] } }) := rfl

omit [Sink κ] in
/-- The same site without the list of messages, for a history beside a sink. -/
def forgetSecond (site : Site (ρ × Watched κ)) : Site (ρ × κ) :=
  { site with resource := (site.resource.1, site.resource.2.sink) }

/-- Watching a sink changes nothing in a run. -/
theorem perform_run [History ρ] (settings : Settings) (options : RunOptions)
    (site : Site (ρ × Watched κ)) :
    (run settings options).perform (forgetSecond site) =
      (((run settings options).perform site).1,
        forgetSecond ((run settings options).perform site).2) :=
  perform_run_withPart (·.sink) (fun _ _ _ => rfl) settings options site

end Watched

end CommitReports
