import TargetWakeTime.Bit

/-!
Contract: the eight commands of a TWT setup exchange.

A command is three bits on the wire. The first four are made by the side that asks for an
agreement, the last four by the side that answers.
-/

namespace TargetWakeTime

inductive SetupCommand where
  | request
  | suggest
  | demand
  | grouping
  | accept
  | alternate
  | dictate
  | reject
deriving DecidableEq, Repr, Inhabited

namespace SetupCommand

/-- The three-bit value on the wire. -/
def code : SetupCommand → Fin 8
  | request => 0
  | suggest => 1
  | demand => 2
  | grouping => 3
  | accept => 4
  | alternate => 5
  | dictate => 6
  | reject => 7

/-- The command of a three-bit value. -/
def ofCode : Fin 8 → SetupCommand
  | 0 => request
  | 1 => suggest
  | 2 => demand
  | 3 => grouping
  | 4 => accept
  | 5 => alternate
  | 6 => dictate
  | 7 => reject

@[simp] theorem ofCode_code (command : SetupCommand) : ofCode command.code = command := by
  cases command <;> rfl

@[simp] theorem code_ofCode (code : Fin 8) : (ofCode code).code = code := by
  revert code
  decide

/-- The command that the low three bits of an octet name. -/
def ofBits (bits : UInt8) : SetupCommand := ofCode (Bit.lowThree bits.toNat)

/-- Whether the asking side makes this command. -/
def isRequest : SetupCommand → Bool
  | request | suggest | demand | grouping => true
  | accept | alternate | dictate | reject => false

def name : SetupCommand → String
  | request => "Request"
  | suggest => "Suggest"
  | demand => "Demand"
  | grouping => "Grouping"
  | accept => "Accept"
  | alternate => "Alternate"
  | dictate => "Dictate"
  | reject => "Reject"

def all : List SetupCommand :=
  [request, suggest, demand, grouping, accept, alternate, dictate, reject]

/-- The command of this name. -/
def ofName? (name : String) : Option SetupCommand :=
  all.find? (·.name == name)

end SetupCommand

end TargetWakeTime
