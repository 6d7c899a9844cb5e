import TargetWakeTime.Agreement.SetupCommand
import TargetWakeTime.Bit

/-!
Contract: the 16-bit request type of a TWT parameter set.

Owns:
- the eight subfields, which together take all sixteen bits, lowest first: requester, setup command
  (3), trigger, implicit, flow type, flow identifier (3), wake interval exponent (5), protection;
- the two directions between fields and word, which are inverse to each other;
- rewriting of single subfields.
-/

namespace TargetWakeTime

structure RequestType where
  /-- Set by the side that asks for the agreement. -/
  request : Bool
  command : SetupCommand
  trigger : Bool
  implicit : Bool
  /-- Set for unannounced flows. -/
  flowType : Bool
  flow : Fin 8
  exponent : Fin 32
  protection : Bool
deriving DecidableEq, Repr

namespace RequestType

/-- The fields as the number that goes on the wire. -/
def toNat (r : RequestType) : Nat :=
  r.request.toNat + 2 * r.command.code.val + 16 * r.trigger.toNat + 32 * r.implicit.toNat +
    64 * r.flowType.toNat + 128 * r.flow.val + 1024 * r.exponent.val + 32768 * r.protection.toNat

theorem toNat_lt (r : RequestType) : r.toNat < 65536 := by
  have request := Bool.toNat_le r.request
  have trigger := Bool.toNat_le r.trigger
  have implicit := Bool.toNat_le r.implicit
  have flowType := Bool.toNat_le r.flowType
  have protection := Bool.toNat_le r.protection
  have command := r.command.code.isLt
  have flow := r.flow.isLt
  have exponent := r.exponent.isLt
  unfold toNat
  omega

def toWord (r : RequestType) : UInt16 := UInt16.ofNat r.toNat

/-- The fields of a number; bits above the sixteenth are ignored. -/
def ofNat (n : Nat) : RequestType where
  request := Bit.lowest n
  command := .ofCode (Bit.lowThree (n / 2))
  trigger := Bit.lowest (n / 16)
  implicit := Bit.lowest (n / 32)
  flowType := Bit.lowest (n / 64)
  flow := Bit.lowThree (n / 128)
  exponent := Bit.lowFive (n / 1024)
  protection := Bit.lowest (n / 32768)

def ofWord (word : UInt16) : RequestType := ofNat word.toNat

theorem toNat_ofNat (n : Nat) : (ofNat n).toNat = n % 65536 := by
  simp only [toNat, ofNat, SetupCommand.code_ofCode, Bit.toNat_lowest, Bit.val_lowThree,
    Bit.val_lowFive]
  omega

@[simp] theorem ofNat_toNat (r : RequestType) : ofNat r.toNat = r := by
  obtain ⟨request, command, trigger, implicit, flowType, flow, exponent, protection⟩ := r
  have requestBound := Bool.toNat_le request
  have triggerBound := Bool.toNat_le trigger
  have implicitBound := Bool.toNat_le implicit
  have flowTypeBound := Bool.toNat_le flowType
  have protectionBound := Bool.toNat_le protection
  have commandBound := command.code.isLt
  have flowBound := flow.isLt
  have exponentBound := exponent.isLt
  simp only [ofNat, toNat, RequestType.mk.injEq]
  refine ⟨Bit.lowest_eq_of_mod (by omega), ?_, Bit.lowest_eq_of_mod (by omega),
    Bit.lowest_eq_of_mod (by omega), Bit.lowest_eq_of_mod (by omega), ?_, ?_,
    Bit.lowest_eq_of_mod (by omega)⟩
  · rw [← SetupCommand.ofCode_code command]
    congr 1
    apply Fin.ext
    simp only [Bit.val_lowThree, SetupCommand.ofCode_code]
    omega
  · apply Fin.ext
    simp only [Bit.val_lowThree]
    omega
  · apply Fin.ext
    simp only [Bit.val_lowFive]
    omega

theorem toNat_toWord (r : RequestType) : r.toWord.toNat = r.toNat := by
  rw [toWord, UInt16.toNat_ofNat', Nat.mod_eq_of_lt r.toNat_lt]

@[simp] theorem ofWord_toWord (r : RequestType) : ofWord r.toWord = r := by
  rw [ofWord, toNat_toWord, ofNat_toNat]

@[simp] theorem toWord_ofWord (word : UInt16) : (ofWord word).toWord = word := by
  apply UInt16.toNat_inj.mp
  rw [toNat_toWord, ofWord, toNat_ofNat]
  exact Nat.mod_eq_of_lt word.toNat_lt

/-- No flag set, first command, flow 0, exponent 0. -/
def zero : RequestType := ofNat 0

/-- Rewrites the command and, with it, which side speaks. -/
def withCommand (command : SetupCommand) (r : RequestType) : RequestType :=
  { r with command := command, request := command.isRequest }

/-- Rewrites the flow; only the low three bits of the octet count. -/
def withFlow (flow : UInt8) (r : RequestType) : RequestType :=
  { r with flow := Bit.lowThree flow.toNat }

/-- Rewrites the exponent; only the low five bits of the octet count. -/
def withExponent (exponent : UInt8) (r : RequestType) : RequestType :=
  { r with exponent := Bit.lowFive exponent.toNat }

end RequestType

end TargetWakeTime
