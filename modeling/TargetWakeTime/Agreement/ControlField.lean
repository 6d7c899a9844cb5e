import TargetWakeTime.Bit

/-!
Contract: the control octet that opens a TWT element.

Owns the five named flags, the duration unit and the two reserved bits, which are kept as they came.
The two directions between fields and octet are inverse to each other.
-/

namespace TargetWakeTime

structure ControlField where
  ndpPaging : Bool
  /-- The responder stays awake outside its service periods. -/
  responderAwake : Bool
  /-- Negotiation of beacon target times. -/
  tbttNegotiation : Bool
  broadcast : Bool
  infoFrameDisabled : Bool
  /-- Wake durations count time units, not units of 256 microseconds. -/
  durationInTimeUnits : Bool
  reserved : Fin 4
deriving DecidableEq, Repr

namespace ControlField

def toNat (c : ControlField) : Nat :=
  c.ndpPaging.toNat + 2 * c.responderAwake.toNat + 4 * c.tbttNegotiation.toNat +
    8 * c.broadcast.toNat + 16 * c.infoFrameDisabled.toNat +
    32 * c.durationInTimeUnits.toNat + 64 * c.reserved.val

theorem toNat_lt (c : ControlField) : c.toNat < 256 := by
  have ndpPaging := Bool.toNat_le c.ndpPaging
  have responderAwake := Bool.toNat_le c.responderAwake
  have tbttNegotiation := Bool.toNat_le c.tbttNegotiation
  have broadcast := Bool.toNat_le c.broadcast
  have infoFrameDisabled := Bool.toNat_le c.infoFrameDisabled
  have durationInTimeUnits := Bool.toNat_le c.durationInTimeUnits
  have reserved := c.reserved.isLt
  unfold toNat
  omega

def toOctet (c : ControlField) : UInt8 := UInt8.ofNat c.toNat

def ofNat (n : Nat) : ControlField where
  ndpPaging := Bit.lowest n
  responderAwake := Bit.lowest (n / 2)
  tbttNegotiation := Bit.lowest (n / 4)
  broadcast := Bit.lowest (n / 8)
  infoFrameDisabled := Bit.lowest (n / 16)
  durationInTimeUnits := Bit.lowest (n / 32)
  reserved := Bit.lowTwo (n / 64)

def ofOctet (octet : UInt8) : ControlField := ofNat octet.toNat

theorem toNat_ofNat (n : Nat) : (ofNat n).toNat = n % 256 := by
  simp only [toNat, ofNat, Bit.toNat_lowest, Bit.val_lowTwo]
  omega

theorem toNat_toOctet (c : ControlField) : c.toOctet.toNat = c.toNat := by
  rw [toOctet, UInt8.toNat_ofNat', Nat.mod_eq_of_lt c.toNat_lt]

/-- Fields survive being written as an octet. -/
@[simp] theorem ofOctet_toOctet (c : ControlField) : ofOctet c.toOctet = c := by
  rw [ofOctet, toNat_toOctet]
  obtain ⟨ndpPaging, responderAwake, tbttNegotiation, broadcast, infoFrameDisabled,
    durationInTimeUnits, reserved⟩ := c
  have ndpPagingBound := Bool.toNat_le ndpPaging
  have responderAwakeBound := Bool.toNat_le responderAwake
  have tbttNegotiationBound := Bool.toNat_le tbttNegotiation
  have broadcastBound := Bool.toNat_le broadcast
  have infoFrameDisabledBound := Bool.toNat_le infoFrameDisabled
  have durationInTimeUnitsBound := Bool.toNat_le durationInTimeUnits
  have reservedBound := reserved.isLt
  simp only [ofNat, toNat, ControlField.mk.injEq]
  refine ⟨Bit.lowest_eq_of_mod (by omega), Bit.lowest_eq_of_mod (by omega),
    Bit.lowest_eq_of_mod (by omega), Bit.lowest_eq_of_mod (by omega),
    Bit.lowest_eq_of_mod (by omega), Bit.lowest_eq_of_mod (by omega), ?_⟩
  apply Fin.ext
  simp only [Bit.val_lowTwo]
  omega

/-- An octet survives being taken apart. -/
@[simp] theorem toOctet_ofOctet (octet : UInt8) : (ofOctet octet).toOctet = octet := by
  apply UInt8.toNat_inj.mp
  rw [toNat_toOctet, ofOctet, toNat_ofNat]
  exact Nat.mod_eq_of_lt octet.toNat_lt

def zero : ControlField := ofNat 0

end ControlField

end TargetWakeTime
