import TargetWakeTime.Host.Error

/-!
Contract: what the command channel needs from the way to the chip.

A link takes frames towards the chip, or refuses them, and later yields the frames that come back.
It never answers while it takes a frame.
-/

namespace TargetWakeTime.Host

/-- A link whose state is `σ`, on a clock of milliseconds. -/
class Link (σ : Type) where
  /-- Takes a frame at this time, or refuses it. -/
  transmit (now : Nat) (frame : List UInt8) (link : σ) : Except LinkError Unit × σ
  nextArrival? (link : σ) : Option Nat
  /-- The frames that have come back by this time, in order of arrival. -/
  arrivals (now : Nat) (link : σ) : List (List UInt8) × σ

end TargetWakeTime.Host
