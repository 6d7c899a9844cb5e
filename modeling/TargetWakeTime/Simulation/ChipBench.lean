import TargetWakeTime.Host.Chip
import TargetWakeTime.Simulation.Bench

/-!
Contract: a simulated chip on its own, and as the link of a bench.
-/

namespace TargetWakeTime.Simulation

/-- A chip on a clock of its own. -/
structure ChipBench where
  now : Nat := 0
  chip : Host.Chip
deriving DecidableEq, Repr

namespace ChipBench

/-- Lets a millisecond more than the chip's latency pass, and yields the confirms that arrive. -/
def collect (b : ChipBench) : List (List UInt8) × ChipBench :=
  let now := b.now + b.chip.settings.latency + 1
  let (frames, chip) := b.chip.arrivals now
  (frames, { now, chip })

def transmit (frame : List UInt8) (b : ChipBench) : Except Host.LinkError Unit × ChipBench :=
  let (outcome, chip) := b.chip.transmit b.now frame
  (outcome, { b with chip })

end ChipBench

namespace Bench

/-- A bench whose link is a simulated chip, attached from the start. -/
def ofChip (channel : Host.Channel.Settings) (chip : Host.Chip.Settings) : Bench Host.Chip where
  bus := { channel := { settings := channel, attached := true }, link := { settings := chip } }

def withChip (f : Host.Chip → Host.Chip) (b : Bench Host.Chip) : Bench Host.Chip :=
  { b with bus := { b.bus with link := f b.bus.link } }

end Bench

end TargetWakeTime.Simulation
