import TargetWakeTime.Agreement.Basic
import TargetWakeTime.Agreement.WakeInterval

/-!
Contract: agreements that are configured locally, and the agreement each of them asks for.

Checks come in this order: the flow, the wake interval's range, a zero interval, the wake duration's
range, a zero duration.
-/

namespace TargetWakeTime

/-- How a local request gives its wake interval. -/
inductive WakeIntervalSpec where
  /-- Microseconds, split into mantissa and exponent by halving. -/
  | micros (interval : UInt64)
  | explicit (mantissa : UInt16) (exponent : UInt8)
deriving DecidableEq, Repr

/-- Whether the access point is asked, or the agreement goes to the chip straight away. -/
inductive SetupMode where
  | negotiate
  | forceInstall
deriving DecidableEq, Repr

structure SetupRequest where
  flow : UInt8
  interval : WakeIntervalSpec
  duration : UInt32
  targetTime : UInt64 := 0
  command : SetupCommand := .request
  mode : SetupMode := .negotiate
deriving DecidableEq, Repr

namespace SetupRequest

/-- Installs on the chip with this wake time, without asking. -/
def forced (targetTime : UInt64) (r : SetupRequest) : SetupRequest :=
  { r with mode := .forceInstall, targetTime := targetTime }

def intervalFields (r : SetupRequest) : Except Error WakeInterval.Fields :=
  match r.interval with
  | .micros interval => WakeInterval.fields interval
  | .explicit mantissa exponent =>
      if exponent.toNat ≤ WakeInterval.maximumExponent then .ok ⟨mantissa, exponent.toNat⟩
      else .error (.invalidParameter (.exponentOutOfRange exponent))

/-- The agreement that the request asks for. -/
def build (r : SetupRequest) : Except Error Agreement := do
  if 7 < r.flow then throw (.invalidFlow r.flow)
  let fields ← r.intervalFields
  let interval := WakeInterval.micros fields.mantissa fields.exponent
  if interval = 0 then throw (.invalidParameter .zeroInterval)
  let units ← WakeDuration.units r.duration
  if units = 0 then throw (.invalidParameter .zeroDuration)
  let requestType : RequestType :=
    { RequestType.zero with
      implicit := true
      flow := Bit.lowThree r.flow.toNat
      exponent := Bit.lowFive fields.exponent }
  return {
    control := .zero
    parameters :=
      { requestType := requestType.withCommand r.command
        wakeTime := r.targetTime
        minimumDuration := units
        mantissa := fields.mantissa
        channel := 0 }
    wakeTime := r.targetTime
    wakeInterval := interval
    wakeDuration := WakeDuration.ofUnits units }

end SetupRequest

end TargetWakeTime
