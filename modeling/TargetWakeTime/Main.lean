import TargetWakeTime.Simulation.Preset
import TargetWakeTime.Simulation.Scenario

/-! Plays every scenario on the ideal set-up and prints what it has to say. -/

open TargetWakeTime.Simulation

def main : IO Unit := do
  let settings := Preset.idealBus.network
  let scripts :=
    [Scenario.negotiation, Scenario.association, Scenario.crowded Scenario.spreadUnits,
      Scenario.teardownFlow, Scenario.commandBus settings.node]
  for script in scripts do
    let (result, lines) := Scenario.play script settings
    for line in lines do
      IO.println line
    match result with
    | .ok () => pure ()
    | .error reason => IO.println ("scenario aborted: " ++ reason.message)
