import CommitReports.Proofs.Run.Simulation

/-!
# Sinks whose deliveries are counted

A tallied sink is a sink with the number of reports that it has taken and of those that
it has refused. Each report is passed on, and counted by what became of it, so counting
changes nothing in a run (`Tallied.perform_run`).
-/

namespace CommitReports

/-- A sink, with the number of reports that it took and of those that it refused. -/
structure Tallied (κ : Type) where
  sink : κ
  taken : Nat := 0
  refused : Nat := 0

variable {ρ κ : Type}

/-- The same site with a sink whose deliveries are counted from now on. -/
def Site.tallied (site : Site (ρ × κ)) : Site (ρ × Tallied κ) :=
  { site with resource := (site.resource.1, { sink := site.resource.2 }) }

namespace Tallied

variable [Sink κ]

/-- Passes a message on and counts what becomes of it. -/
def deliver (commit message : String) : Action (Tallied κ) Unit := do
  tryCatch (Action.zoom (·.sink) (fun sink tallied => { tallied with sink })
      (Sink.deliver commit message)) fun e => do
    Action.change fun tallied => { tallied with refused := tallied.refused + 1 }
    throw e
  Action.change fun tallied => { tallied with taken := tallied.taken + 1 }

instance : Sink (Tallied κ) := ⟨deliver⟩

theorem perform_deliver (commit message : String) (site : Site (Tallied κ)) :
    (Sink.deliver commit message : Action (Tallied κ) Unit).perform site =
      match (Sink.deliver commit message : Action κ Unit).perform
        { site with resource := site.resource.sink } with
      | (.ok (), after) => (.ok (), { after with resource :=
          { sink := after.resource, taken := site.resource.taken + 1
            refused := site.resource.refused } })
      | (.error e, after) => (.error e, { after with resource :=
          { sink := after.resource, taken := site.resource.taken
            refused := site.resource.refused + 1 } }) := by
  have hzoom : (Action.zoom (·.sink) (fun sink tallied => { tallied with sink })
      (Sink.deliver commit message) : Action (Tallied κ) Unit).perform site =
        let after := (Sink.deliver commit message : Action κ Unit).perform
          { site with resource := site.resource.sink }
        (after.1, { after.2 with resource := { site.resource with sink := after.2.resource } }) := rfl
  show (deliver commit message).perform site = _
  simp only [deliver, Action.perform_bind, Action.perform_tryCatch, hzoom]
  rcases (Sink.deliver commit message : Action κ Unit).perform
    { site with resource := site.resource.sink } with ⟨⟨e⟩ | ⟨⟨⟩⟩, after⟩
  · simp only [Action.perform_change, Action.perform_throw]
  · simp only [Action.perform_change]

/-- Counting the deliveries changes nothing in a run. -/
theorem perform_run [History ρ] (settings : Settings) (options : RunOptions)
    (site : Site (ρ × Tallied κ)) :
    (run settings options).perform (site.withPart (·.sink)) =
      (((run settings options).perform site).1,
        ((run settings options).perform site).2.withPart (·.sink)) := by
  refine perform_run_withPart (·.sink) (fun commit message site => ?_) settings options site
  rw [perform_deliver]
  rcases (Sink.deliver commit message : Action κ Unit).perform
    { site with resource := site.resource.sink } with ⟨⟨e⟩ | ⟨⟨⟩⟩, after⟩ <;> rfl

end Tallied

end CommitReports
