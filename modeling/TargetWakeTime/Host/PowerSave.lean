/-!
Contract: nested requests to keep the chip awake.

The chip may sleep only while nobody keeps it awake. Releasing what nobody holds changes nothing.
-/

namespace TargetWakeTime.Host

structure PowerSave where
  /-- How many hold the chip awake. -/
  depth : Nat := 0
  /-- How often it was told to stay awake. -/
  disables : Nat := 0
deriving DecidableEq, Repr

namespace PowerSave

def enabled (p : PowerSave) : Bool := p.depth == 0

def disable (p : PowerSave) : PowerSave :=
  { depth := p.depth + 1, disables := p.disables + 1 }

def enable (p : PowerSave) : PowerSave :=
  { p with depth := p.depth - 1 }

/-- A hold that is released leaves the depth as it was. -/
@[simp] theorem depth_enable_disable (p : PowerSave) : p.disable.enable.depth = p.depth := by
  simp [disable, enable]

end PowerSave

end TargetWakeTime.Host
