import TargetWakeTime.Bit
import TargetWakeTime.Hexadecimal

/-!
Contract: the 16-bit identifier that pairs a command with its confirm.

The upper twelve bits are the sequence number of the command, the lower four count the transmission
of it. The two directions between parts and word are inverse to each other.
-/

namespace TargetWakeTime.Host

structure HostId where
  sequence : Fin 4096
  retry : Fin 16
deriving DecidableEq, Repr

namespace HostId

def maximumSequence : Nat := 4095

/-- The identifier of a transmission; only the bits that fit the two fields count. -/
def of (sequence retry : Nat) : HostId := ⟨Bit.lowTwelve sequence, Bit.lowFour retry⟩

def toNat (id : HostId) : Nat := id.sequence.val * 16 + id.retry.val

theorem toNat_lt (id : HostId) : id.toNat < 65536 := by
  have sequence := id.sequence.isLt
  have retry := id.retry.isLt
  unfold toNat
  omega

def toWord (id : HostId) : UInt16 := UInt16.ofNat id.toNat

def ofNat (n : Nat) : HostId := of (n / 16) n

def ofWord (word : UInt16) : HostId := ofNat word.toNat

theorem toNat_toWord (id : HostId) : id.toWord.toNat = id.toNat := by
  rw [toWord, UInt16.toNat_ofNat', Nat.mod_eq_of_lt id.toNat_lt]

@[simp] theorem ofNat_toNat (id : HostId) : ofNat id.toNat = id := by
  obtain ⟨sequence, retry⟩ := id
  have sequenceBound := sequence.isLt
  have retryBound := retry.isLt
  simp only [ofNat, of, toNat, HostId.mk.injEq]
  constructor
  · apply Fin.ext
    simp only [Bit.val_lowTwelve]
    omega
  · apply Fin.ext
    simp only [Bit.val_lowFour]
    omega

@[simp] theorem ofWord_toWord (id : HostId) : ofWord id.toWord = id := by
  rw [ofWord, toNat_toWord, ofNat_toNat]

@[simp] theorem toWord_ofWord (word : UInt16) : (ofWord word).toWord = word := by
  have bound := word.toNat_lt
  apply UInt16.toNat_inj.mp
  rw [toNat_toWord]
  simp only [ofWord, ofNat, of, toNat, Bit.val_lowTwelve, Bit.val_lowFour]
  omega

/-- Whether two identifiers belong to transmissions of the same command; retries do not count. -/
def sameSequence (a b : HostId) : Bool := a.sequence == b.sequence

def text (id : HostId) : String := Hexadecimal.word id.toWord

end HostId

/-- The sequence number of the next command, in the cycle from 1 to the largest one. -/
def nextSequence (sequence : Nat) : Nat :=
  if HostId.maximumSequence ≤ sequence then 1 else sequence + 1

/-- No command ever has sequence number 0, and every one fits the field. -/
theorem nextSequence_mem (sequence : Nat) :
    1 ≤ nextSequence sequence ∧ nextSequence sequence ≤ HostId.maximumSequence := by
  unfold nextSequence HostId.maximumSequence
  split <;> omega

end TargetWakeTime.Host
