import TargetWakeTime.Proofs.Agreement.Legible

/-!
Contract: agreements that a responder announces with a wake time of its own.

Owns:
- the announcement of an agreement, with a new wake time and a command, and the wire fields written
  anew from the microsecond values;
- that whoever reads the announced element has the responder's own agreement: the new wake time and
  command, and for the rest what the element asked for that the agreement was read from.

The fields are written by shifting and dividing, and cut off at 16 and 8 bits. Values that were read
from an element are multiples of what they are divided by, so nothing is cut off.
-/

namespace TargetWakeTime.Agreement

/-- The agreement with this wake time and command, as it goes out. -/
def announce (wakeTime : UInt64) (command : SetupCommand) (a : Agreement) : Agreement :=
  ({ a with wakeTime }.withCommand command).updateParameters

/-- An agreement announces another one with a new wake time and a new command: both ends have the
same agreement once its element is read, and nothing else is new. -/
structure Announces (a : Agreement) (newWakeTime : UInt64) (newCommand : SetupCommand)
    (announced : Agreement) : Prop where
  readsBack : parse announced.element = .ok announced
  wakeTime : announced.wakeTime = newWakeTime
  command : announced.command = newCommand
  requester : announced.parameters.requestType.request = newCommand.isRequest
  wakeInterval : announced.wakeInterval = a.wakeInterval
  wakeDuration : announced.wakeDuration = a.wakeDuration
  control : announced.control = a.control
  /-- Of the parameter set, the subfields of the command and the wake time are rewritten, and no
  other. -/
  parameters : announced.parameters =
    { a.parameters with
      wakeTime := newWakeTime
      requestType :=
        { a.parameters.requestType with command := newCommand, request := newCommand.isRequest } }

variable {a announced : Agreement} {wakeTime : UInt64} {command : SetupCommand}

theorem Announces.flow (announces : Announces a wakeTime command announced) :
    announced.flow = a.flow := by
  rw [Agreement.flow, announces.parameters]
  rfl

theorem Announces.exponent (announces : Announces a wakeTime command announced) :
    announced.parameters.requestType.exponent = a.parameters.requestType.exponent := by
  rw [announces.parameters]

/-- A legible agreement is announced faithfully. -/
theorem Legible.announces (legible : a.Legible) (wakeTime : UInt64) (command : SetupCommand) :
    Announces a wakeTime command (a.announce wakeTime command) where
  readsBack := (legible.announced wakeTime command).parse_element
  wakeTime := rfl
  command := rfl
  requester := rfl
  wakeInterval := rfl
  wakeDuration := rfl
  control := rfl
  parameters := congrArg Agreement.parameters (legible.announced_eq wakeTime command)

/-- Whatever an element asks for, and whatever wake time and command the responder answers with, the
element of the answer reads back as the responder's own agreement, with this wake time and command,
the side that makes it, and the interval, duration, exponent, flow and duration unit of the
request. -/
theorem announces_of_parse (bytes : List UInt8) (a : Agreement) (read : parse bytes = .ok a)
    (wakeTime : UInt64) (command : SetupCommand) :
    let announced := a.announce wakeTime command
    Announces a wakeTime command announced ∧ announced.flow = a.flow ∧
      announced.parameters.requestType.exponent = a.parameters.requestType.exponent ∧
      announced.control.durationInTimeUnits = a.control.durationInTimeUnits := by
  intro announced
  have announces : Announces a wakeTime command announced :=
    (legible_of_parse read).announces wakeTime command
  exact ⟨announces, announces.flow, announces.exponent,
    congrArg ControlField.durationInTimeUnits announces.control⟩

/-- The longest interval and the longest duration in time units are announced whole, for the last
microsecond there is. -/
theorem announces_of_parse_widestFields :
    let bytes : List UInt8 := [0x20, 0x21, 0x7c, 0, 0, 0, 0, 0, 0, 0, 0, 255, 255, 255, 0]
    ∃ a, parse bytes = .ok a ∧ a.wakeInterval.toNat = 65535 <<< 31 ∧
      a.wakeDuration.toNat = 255 * 1024 ∧
      Announces a 0xffffffffffffffff .alternate (a.announce 0xffffffffffffffff .alternate) := by
  intro bytes
  obtain ⟨a, read, interval, duration⟩ : ∃ a, parse bytes = .ok a ∧
      a.wakeInterval.toNat = 65535 <<< 31 ∧ a.wakeDuration.toNat = 255 * 1024 :=
    ⟨_, rfl, by decide +kernel, by decide +kernel⟩
  exact ⟨a, read, interval, duration, (announces_of_parse bytes a read _ _).1⟩

end TargetWakeTime.Agreement
