import TargetWakeTime.Host.Error
import TargetWakeTime.Host.HostId
import TargetWakeTime.LittleEndian

/-!
Contract: the 12-octet header of every frame between host and chip, and the known messages.

Five little-endian words (message, length of the rest, flags, interface, host identifier) and two
reserved octets, which are written as zero and ignored when read.
-/

namespace TargetWakeTime.Host

inductive MessageId where
  | healthCheck
  | installAgreement
  | validateAgreement
  | removeAgreement
deriving DecidableEq, Repr

namespace MessageId

def code : MessageId → UInt16
  | healthCheck => 0x0019
  | installAgreement => 0x0027
  | validateAgreement => 0x0028
  | removeAgreement => 0x0029

def all : List MessageId := [healthCheck, installAgreement, validateAgreement, removeAgreement]

def ofCode (code : UInt16) : Except CommandError MessageId :=
  match all.find? (·.code == code) with
  | some message => .ok message
  | none => .error (.malformed (.unknownMessage code))

@[simp] theorem ofCode_code (message : MessageId) : ofCode message.code = .ok message := by
  cases message <;> rfl

end MessageId

def requestFlags : UInt16 := 1

def confirmFlags : UInt16 := 2

structure Header where
  message : UInt16
  length : UInt16
  flags : UInt16
  vif : UInt16
  hostId : HostId
deriving DecidableEq, Repr

namespace Header

def size : Nat := 12

/-- Whether the frame confirms a command. -/
def isConfirm (h : Header) : Bool := h.flags.toNat / 2 % 2 == 1

def encode (h : Header) : List UInt8 :=
  LittleEndian.encode 2 h.message.toNat ++ LittleEndian.encode 2 h.length.toNat ++
    LittleEndian.encode 2 h.flags.toNat ++ LittleEndian.encode 2 h.vif.toNat ++
    LittleEndian.encode 2 h.hostId.toNat ++ [0, 0]

@[simp] theorem length_encode (h : Header) : h.encode.length = size := by
  simp [encode, size]

def word (low high : UInt8) : UInt16 := UInt16.ofNat (LittleEndian.decode [low, high])

/-- Reads a header; the second component is what follows it. -/
def decode : List UInt8 → Except CommandError (Header × List UInt8)
  | m₀ :: m₁ :: l₀ :: l₁ :: f₀ :: f₁ :: v₀ :: v₁ :: h₀ :: h₁ :: _ :: _ :: rest =>
      .ok
        ({ message := word m₀ m₁
           length := word l₀ l₁
           flags := word f₀ f₁
           vif := word v₀ v₁
           hostId := .ofNat (LittleEndian.decode [h₀, h₁]) },
         rest)
  | bytes => .error (.malformed (.headerTruncated bytes.length))

private theorem word_encode (w : UInt16) :
    ∃ low high, LittleEndian.encode 2 w.toNat = [low, high] ∧ word low high = w := by
  refine ⟨_, _, rfl, ?_⟩
  have back : LittleEndian.decode (LittleEndian.encode 2 w.toNat) = w.toNat :=
    LittleEndian.decode_encode_of_lt w.toNat_lt
  simp only [LittleEndian.encode] at back
  rw [word, back, UInt16.ofNat_toNat]

/-- A header reads back from its own octets, whatever follows them. -/
theorem decode_encode (h : Header) (rest : List UInt8) :
    decode (h.encode ++ rest) = .ok (h, rest) := by
  obtain ⟨m₀, m₁, message, messageBack⟩ := word_encode h.message
  obtain ⟨l₀, l₁, length, lengthBack⟩ := word_encode h.length
  obtain ⟨f₀, f₁, flags, flagsBack⟩ := word_encode h.flags
  obtain ⟨v₀, v₁, vif, vifBack⟩ := word_encode h.vif
  have hostId : LittleEndian.decode (LittleEndian.encode 2 h.hostId.toNat) = h.hostId.toNat :=
    LittleEndian.decode_encode_of_lt h.hostId.toNat_lt
  simp only [encode, message, length, flags, vif]
  simp only [LittleEndian.encode] at hostId
  simp only [LittleEndian.encode, List.cons_append, List.nil_append, decode, messageBack,
    lengthBack, flagsBack, vifBack, hostId, HostId.ofNat_toNat]

/-- Fewer octets than a header has are no header. -/
theorem decode_short {bytes : List UInt8} (short : bytes.length < size) :
    decode bytes = .error (.malformed (.headerTruncated bytes.length)) := by
  unfold decode
  split
  · simp only [List.length_cons, size] at short
    omega
  · rfl

end Header

end TargetWakeTime.Host
