import TargetWakeTime.Simulation.Network

/-!
Contract: named set-ups of a simulated network.

A set-up also names the spread of a chip's latency and the share of confirms that get lost. Both
describe the set-up only: the simulation itself has a fixed latency and loses all confirms or none.
-/

namespace TargetWakeTime.Simulation

structure Preset where
  /-- Milliseconds from a command to its confirm. -/
  latency : Nat
  /-- Standard deviation of the latency in milliseconds. -/
  jitter : Nat
  /-- Confirms in a hundred that never reach the host. -/
  lossPercent : Nat
  channel : Host.Channel.Settings := {}
  stations : Nat
deriving DecidableEq, Repr

namespace Preset

/-- A single chip as it comes, with no network around it. -/
def plain : Preset := { latency := 2, jitter := 1, lossPercent := 0, stations := 0 }

def idealBus : Preset := { latency := 1, jitter := 0, lossPercent := 0, stations := 4 }

def busyChip : Preset := { latency := 40, jitter := 15, lossPercent := 2, stations := 8 }

def lossyBus : Preset where
  latency := 5
  jitter := 2
  lossPercent := 25
  channel := { timeout := 100, healthTimeout := 200, maximumAttempts := 3 }
  stations := 8

/-- Confirms are lost half the time, and most commands use up their transmissions. -/
def failingBus : Preset where
  latency := 5
  jitter := 2
  lossPercent := 50
  channel := { timeout := 50, healthTimeout := 100, maximumAttempts := 2 }
  stations := 2

/-- The network of a set-up, with the mean latency and without any loss. -/
def network (p : Preset) : Network.Settings where
  node := { channel := p.channel, chip := { latency := p.latency } }
  stations := p.stations

/-- The lost share as a decimal fraction. -/
def lossText (p : Preset) : String :=
  if p.lossPercent % 100 = 0 then toString (p.lossPercent / 100)
  else if p.lossPercent % 10 = 0 then s!"{p.lossPercent / 100}.{p.lossPercent % 100 / 10}"
  else s!"{p.lossPercent / 100}.{p.lossPercent % 100 / 10}{p.lossPercent % 10}"

end Preset

end TargetWakeTime.Simulation
