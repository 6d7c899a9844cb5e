/-!
Contract: the two granularities of wake durations.

A time unit is 1024 microseconds. Durations on the wire count either time units or units of 256
microseconds.
-/

namespace TargetWakeTime.TimeUnit

/-- Microseconds in a time unit. -/
def micros : Nat := 1024

/-- Microseconds in the finer unit of wake durations. -/
def fineMicros : Nat := 256

def toMicros (units : UInt64) : UInt64 := units * 1024

/-- Whole time units; what is left over is dropped. -/
def ofMicros (duration : UInt64) : UInt64 := duration / 1024

end TargetWakeTime.TimeUnit
