import TargetWakeTime.Agreement.ControlField
import TargetWakeTime.Agreement.RequestType
import TargetWakeTime.LittleEndian
import TargetWakeTime.TimeUnit

/-!
Contract: an individual TWT agreement.

Owns:
- the parameter set as carried on the wire;
- the agreement: control octet, parameter set, and the microsecond values that scheduling works
  with, which are separate from the wire fields until `updateParameters` writes them back;
- the 15-octet element body, and the form of it that is handed to the chip.

Does not own reading an element, which is `Agreement.Element`.
-/

namespace TargetWakeTime

/-- There are flows from 0 to 7. -/
theorem not_seven_lt_iff {flow : UInt8} : ¬ 7 < flow ↔ flow.toNat < 8 := by
  rw [UInt8.lt_iff_toNat_lt, show (7 : UInt8).toNat = 7 from rfl]
  omega

structure Parameters where
  requestType : RequestType
  wakeTime : UInt64
  /-- Wake duration in the unit that the control octet selects. -/
  minimumDuration : UInt8
  /-- The wake interval is the mantissa times two to the exponent of the request type. -/
  mantissa : UInt16
  channel : UInt8
deriving DecidableEq, Repr

namespace Parameters

def zero : Parameters := ⟨.zero, 0, 0, 0, 0⟩

/-- Octets of the parameter set on the wire. -/
def encodedLength : Nat := 14

def encode (p : Parameters) : List UInt8 :=
  LittleEndian.encode 2 p.requestType.toNat ++ LittleEndian.encode 8 p.wakeTime.toNat ++
    p.minimumDuration :: LittleEndian.encode 2 p.mantissa.toNat ++ [p.channel]

@[simp] theorem length_encode (p : Parameters) : p.encode.length = encodedLength := by
  simp [encode, encodedLength]

def withCommand (command : SetupCommand) (p : Parameters) : Parameters :=
  { p with requestType := p.requestType.withCommand command }

def withFlow (flow : UInt8) (p : Parameters) : Parameters :=
  { p with requestType := p.requestType.withFlow flow }

def withExponent (exponent : UInt8) (p : Parameters) : Parameters :=
  { p with requestType := p.requestType.withExponent exponent }

end Parameters

structure Agreement where
  control : ControlField
  parameters : Parameters
  /-- Microseconds at which the first service period starts. -/
  wakeTime : UInt64
  /-- Microseconds from one service period's start to the next one's. -/
  wakeInterval : UInt64
  /-- Microseconds a service period lasts. -/
  wakeDuration : UInt32
deriving DecidableEq, Repr

namespace Agreement

def zero : Agreement := ⟨.zero, .zero, 0, 0, 0⟩

def command (a : Agreement) : SetupCommand := a.parameters.requestType.command

def flow (a : Agreement) : UInt8 := UInt8.ofNat a.parameters.requestType.flow.val

theorem flow_lt (a : Agreement) : a.flow.toNat < 8 := by
  have bound := a.parameters.requestType.flow.isLt
  rw [flow, UInt8.toNat_ofNat']
  omega

def withCommand (command : SetupCommand) (a : Agreement) : Agreement :=
  { a with parameters := a.parameters.withCommand command }

/-- Writes the microsecond values into the wire fields. Exponent and duration unit stay, and what
does not fit a field is cut off. -/
def updateParameters (a : Agreement) : Agreement :=
  let unit := if a.control.durationInTimeUnits then TimeUnit.micros else TimeUnit.fineMicros
  { a with
    parameters :=
      { a.parameters with
        wakeTime := a.wakeTime
        mantissa := UInt16.ofNat
          (a.wakeInterval.toNat >>> a.parameters.requestType.exponent.val)
        minimumDuration := UInt8.ofNat (a.wakeDuration.toNat / unit) } }

/-- Octets of an element body: the control octet and the parameter set. -/
def elementLength : Nat := 1 + Parameters.encodedLength

def element (a : Agreement) : List UInt8 := a.control.toOctet :: a.parameters.encode

@[simp] theorem length_element (a : Agreement) : a.element.length = elementLength := by
  simp [element, elementLength, Nat.add_comm]

/-- The element as the chip takes it: the chip runs implicit agreements only. -/
def chipBlob (a : Agreement) : List UInt8 :=
  element { a with
    parameters := { a.parameters with
      requestType := { a.parameters.requestType with implicit := true } } }

@[simp] theorem length_chipBlob (a : Agreement) : a.chipBlob.length = elementLength := by
  simp [chipBlob]

end Agreement

end TargetWakeTime
