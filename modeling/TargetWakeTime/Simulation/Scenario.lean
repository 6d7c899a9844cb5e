import TargetWakeTime.Simulation.ChipBench
import TargetWakeTime.Simulation.Elapsed
import TargetWakeTime.Simulation.Network
import TargetWakeTime.Simulation.Overlap

/-!
Contract: scenarios that are played on a simulated network, and the lines they print.

A scenario ends early when an operation it relies on fails; the lines printed so far stay.
-/

namespace TargetWakeTime.Simulation.Scenario

inductive Abort where
  | noStation (error : Network.NoStation)
  | failed (error : Error)
deriving DecidableEq, Repr

def Abort.message : Abort → String
  | noStation error => error.message
  | failed error => error.message

/-- The network a scenario plays on and what it has printed so far. -/
structure Stage where
  network : Network
  lines : List String := []

abbrev Script := ExceptT Abort (StateM Stage)

def print (line : String) : Script Unit :=
  modify fun stage => { stage with lines := stage.lines ++ [line] }

def printAll (lines : List String) : Script Unit :=
  modify fun stage => { stage with lines := stage.lines ++ lines }

/-- Prints a heading below an empty line. -/
def heading (text : String) : Script Unit := printAll ["", s!"=== {text} ==="]

/-- Runs an operation of the network whose failure the scenario deals with. -/
def attempt {α : Type} (operation : Network → α × Network) : Script α := do
  let stage ← get
  let (result, network) := operation stage.network
  set { stage with network }
  return result

def required {α : Type} (result : Except Error α) : Script α :=
  match result with
  | .ok value => pure value
  | .error error => throw (.failed error)

def existing {α : Type} (result : Except Network.NoStation α) : Script α :=
  match result with
  | .ok value => pure value
  | .error error => throw (.noStation error)

def station (index : Nat) : Script Node := do
  existing ((← get).network.station index)

def accessPoint : Script Negotiation := do
  match (← get).network.accessPoint? with
  | some node => return node.interface.negotiation
  | none => return .new .accessPoint

def onWorld {α : Type} (operation : World → α × World) : Script α :=
  attempt fun n =>
    let (result, world) := operation n.world
    (result, { n with world })

def configure (index : Nat) (r : SetupRequest) : Script (Except Error Unit) :=
  onWorld (·.configure (Network.stationNode index) r)

def teardown (index : Nat) (flow : UInt8) : Script (Except Error Unit) :=
  onWorld (·.teardown (Network.stationNode index) flow)

def settle : Script Unit := attempt fun n => ((), n.settle)

/-- The wake interval that all scenarios use, in microseconds. -/
def wakeInterval : UInt64 := 100000

def negotiation : Script Unit := do
  heading "Negotiation over action frames"
  existing (← attempt (·.associate 0))
  let _ ← station 0
  let r : SetupRequest := { flow := 0, interval := .micros wakeInterval, duration := 8192 }
  let agreement ← required r.build
  print s!"request element: {Hexadecimal.text agreement.element}"
  match ← configure 0 r with
  | .ok () => print "✓ request validated by chip and sent"
  | .error error => print s!"✗ configure failed: {error.message}"
  settle
  let node ← station 0
  let own := node.interface.negotiation.own
  let state := own.state 0
  print s!"station flow 0: {state.name} (installed: {own.isInstalled 0})"
  printAll (node.chip.installed.map fun ((vif, flow), agreement) =>
    s!"  chip vif {vif} flow {flow}: {Hexadecimal.text agreement}")
  printAll ((← accessPoint).agreementLines Network.accessPointAddress)

def association : Script Unit := do
  heading "Negotiation during association"
  let node ← station 0
  let address := node.interface.address
  let r : SetupRequest :=
    { flow := 1, interval := .micros wakeInterval, duration := 4096, command := .suggest }
  required (← configure 0 r)
  let asked ← onWorld fun w =>
    (w.onInterface (Network.stationNode 0) (·.associationRequestElement)).getD (none, w)
  match asked with
  | none => print "✗ no TWT element for the association request"
  | some request =>
      print s!"association request TWT element: {Hexadecimal.text request}"
      attempt fun n => ((), n.withAccessPointLink (·.addPeer address))
      let answered ← onWorld fun w =>
        (w.onInterface Network.accessPoint (·.associationRequest address request)).getD
          (.ok none, w)
      match ← required answered with
      | some response =>
          let data ← required (Agreement.parse response)
          print (s!"association response: {data.command.name} at wake time {data.wakeTime}us " ++
            s!"({Hexadecimal.text response})")
          required (← onWorld fun w =>
            (w.onInterface (Network.stationNode 0)
              (·.associationResponse Network.accessPointAddress response)).getD (.ok (), w))
      | none => print "✗ AP did not answer the TWT element"
      attempt fun n =>
        ((), (n.withStationLink 0 (·.associate Network.accessPointAddress)).withWorld
          (·.modifyInterface (Network.stationNode 0) (·.authorized)))
      settle
      let installed := (← station 0).interface.negotiation.own.isInstalled 1
      print s!"installed on chip after authorization: {installed}"

/-- Durations between 20 and 60 units, a different one for each of the first stations. -/
def spreadUnits (station : Nat) : UInt8 := UInt8.ofNat (20 + 7 * station % 41)

/-- Every station asks for a duration of its own in the same wake interval; `units` gives the
duration of each station in units of 256 microseconds. -/
def crowded (units : Nat → UInt8) : Script Unit := do
  let count := (← get).network.size
  heading s!"{count} stations sharing a {wakeInterval}us wake interval"
  for index in List.range count do
    existing (← attempt (·.associate index))
    let r : SetupRequest :=
      { flow := 0, interval := .micros wakeInterval
        duration := WakeDuration.ofUnits (units index) }
    match ← configure index r with
    | .ok () => pure ()
    | .error error => print s!"✗ station {index} could not send its request: {error.message}"
  settle
  let stations := (← get).network.world.nodes.drop 1
  let own := stations.map (·.interface.negotiation.own)
  print s!"accepted: {own.countP (·.state 0 == .agreement)}/{count}"
  print s!"installed: {own.countP (·.isInstalled 0)}/{count}"
  let negotiated ← accessPoint
  printAll negotiated.scheduleLines
  match overlappingPeriods negotiated with
  | 0 => print "✓ no overlapping service periods"
  | overlaps => print s!"✗ {overlaps} overlapping service periods"

def knownStations : Script Nat := return (← accessPoint).stations.size

/-- How many agreements the chip of the first station runs. -/
def chipAgreements : Script Nat := return (← station 0).chip.installed.length

def teardownFlow : Script Unit := do
  heading "Teardown"
  existing (← attempt (·.associate 0))
  let _ ← station 0
  required (← configure 0 { flow := 2, interval := .micros wakeInterval, duration := 2048 })
  settle
  let known ← knownStations
  print s!"AP stations before teardown: {known}"
  match ← teardown 0 2 with
  | .ok () => print "✓ teardown sent"
  | .error error => print s!"✗ teardown refused: {error.message}"
  settle
  let known ← knownStations
  print s!"AP stations after teardown: {known}"
  let installed ← chipAgreements
  print s!"chip agreements left: {installed}"
  existing (← attempt (·.disassociate 0))
  let r : SetupRequest := { flow := 3, interval := .micros 1048576, duration := 4096 }
  required (← configure 0 (r.forced 0))
  let installed ← chipAgreements
  print s!"chip agreements after forced install: {installed}"
  required (← teardown 0 3)
  let installed ← chipAgreements
  print s!"chip agreements after local teardown: {installed}"

def healthChecks : Nat := 20

/-- Health checks from a host to its chip, one after the other, with nothing else going on. -/
def commandBus (settings : Node.Settings) : Script Unit := do
  heading "Command bus"
  let (successes, bench) := (Bench.ofChip settings.channel settings.chip).burst healthChecks
  let failures := healthChecks - successes
  let host := bench.bus.channel.stats
  let chip := bench.bus.link.stats
  let slowest := settings.channel.healthTimeout * settings.channel.maximumAttempts
  printAll
    [ s!"{healthChecks} health checks in {Elapsed.text bench.now}:",
      s!"  Successes: {successes}",
      s!"  Failures: {failures} ({failures * 100 / healthChecks}% failed)",
      s!"  Host: {host.sent} sent, {host.retries} retries, {host.timeouts} timeouts, " ++
        s!"{host.stale} stale confirms",
      s!"  Chip: {chip.received} received, {chip.sent} answered, {chip.dropped} lost",
      s!"worst case per command: {Elapsed.text slowest}" ]

/-- Plays a scenario, and yields how it ended and what it printed. -/
def play (script : Script Unit) (settings : Network.Settings) : Except Abort Unit × List String :=
  let (result, stage) := script { network := .new settings }
  (result, stage.lines)

end TargetWakeTime.Simulation.Scenario
