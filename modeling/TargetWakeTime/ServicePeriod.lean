import TargetWakeTime.Agreement.Basic

/-!
Contract: the service periods of an agreement, which recur with its wake interval.

Times are words of microseconds and are not reduced: a wake time may lie many intervals ahead.
-/

namespace TargetWakeTime

structure ServicePeriod where
  wakeTime : UInt64
  wakeInterval : UInt64
  wakeDuration : UInt32
deriving DecidableEq, Repr

namespace ServicePeriod

def ofAgreement (a : Agreement) : ServicePeriod :=
  ⟨a.wakeTime, a.wakeInterval, a.wakeDuration⟩

/-- Where in its interval a period starts. Without an interval that is the wake time itself. -/
def offset (p : ServicePeriod) : UInt64 := p.wakeTime % p.wakeInterval

def duration (p : ServicePeriod) : UInt64 := p.wakeDuration.toUInt64

/-- When the first period ends. -/
def finish (p : ServicePeriod) : UInt64 := p.wakeTime + p.duration

/-- Where in the interval's course a period ends; this may lie in the next interval. -/
def offsetEnd (p : ServicePeriod) : UInt64 := p.offset + p.duration

end ServicePeriod

end TargetWakeTime
