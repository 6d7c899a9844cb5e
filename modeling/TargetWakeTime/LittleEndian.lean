/-!
Contract: little-endian numbers of a fixed count of octets.

`encode` writes a number, least significant octet first, and keeps only what fits; `decode` reads an
octet string of any length. The two are inverse on numbers that fit and on octet strings of the
width.
-/

namespace TargetWakeTime.LittleEndian

/-- The lowest `width` octets of a number, least significant first. -/
def encode : (width : Nat) → (value : Nat) → List UInt8
  | 0, _ => []
  | width + 1, value => UInt8.ofNat value :: encode width (value / 256)

/-- The number that an octet string writes. -/
def decode : List UInt8 → Nat
  | [] => 0
  | byte :: rest => byte.toNat + 256 * decode rest

@[simp] theorem length_encode (width value : Nat) : (encode width value).length = width := by
  induction width generalizing value with
  | zero => rfl
  | succ width inductionHypothesis => simp [encode, inductionHypothesis]

/-- Writing keeps a number modulo the capacity of its octets. -/
theorem decode_encode (width value : Nat) :
    decode (encode width value) = value % Nat.pow 256 width := by
  induction width generalizing value with
  | zero => exact (Nat.mod_one value).symm
  | succ width inductionHypothesis =>
      have capacity : Nat.pow 256 (width + 1) = 256 * Nat.pow 256 width := Nat.mul_comm _ _
      rw [encode, decode, inductionHypothesis, capacity, Nat.mod_mul]
      exact congrArg (· + _) (UInt8.toNat_ofNat' ..)

/-- A number that fits reads back. -/
theorem decode_encode_of_lt {width value : Nat} (fits : value < Nat.pow 256 width) :
    decode (encode width value) = value := by
  rw [decode_encode, Nat.mod_eq_of_lt fits]

/-- An octet string stays below the capacity of its length. -/
theorem decode_lt (bytes : List UInt8) : decode bytes < Nat.pow 256 bytes.length := by
  induction bytes with
  | nil => exact Nat.one_pos
  | cons head tail inductionHypothesis =>
      have bound : head.toNat < 256 := head.toNat_lt
      have capacity : Nat.pow 256 (tail.length + 1) = 256 * Nat.pow 256 tail.length :=
        Nat.mul_comm _ _
      rw [decode, List.length_cons, capacity]
      omega

/-- An octet string is what its own number writes. -/
theorem encode_decode (bytes : List UInt8) : encode bytes.length (decode bytes) = bytes := by
  induction bytes with
  | nil => rfl
  | cons head tail inductionHypothesis =>
      have bound : head.toNat < 256 := head.toNat_lt
      have rest : (head.toNat + 256 * decode tail) / 256 = decode tail := by omega
      have first : UInt8.ofNat (head.toNat + 256 * decode tail) = head := by
        apply UInt8.toNat_inj.mp
        rw [UInt8.toNat_ofNat']
        omega
      simp only [decode, List.length_cons, encode, rest, first, inductionHypothesis]

/-- The number that octets of a known width write, cut off at that width, writes them again. -/
theorem encode_decode_mod {width : Nat} (bytes : List UInt8) (length : bytes.length = width) :
    encode width (decode bytes % Nat.pow 256 width) = bytes := by
  subst length
  rw [Nat.mod_eq_of_lt (decode_lt bytes), encode_decode]

end TargetWakeTime.LittleEndian
