/-!
Contract: hexadecimal text of octets and words.

Owns:
- digits in both directions; digits are written in lower case and read in either case;
- the text of an octet string, two digits an octet, most significant digit first;
- the number that any count of digits writes;
- the four-digit text of a 16-bit word.
-/

namespace TargetWakeTime.Hexadecimal

/-- The lower-case digit of a value below sixteen; a larger value takes that of its remainder. -/
def digit (value : Nat) : Char :=
  let value := value % 16
  if value < 10 then Char.ofNat (48 + value) else Char.ofNat (87 + value)

/-- The value of a digit in either case. -/
def value? (c : Char) : Option Nat :=
  let code := c.toNat
  if 48 ≤ code ∧ code ≤ 57 then some (code - 48)
  else if 97 ≤ code ∧ code ≤ 102 then some (code - 87)
  else if 65 ≤ code ∧ code ≤ 70 then some (code - 55)
  else none

/-- Every digit that is written reads back as its value. -/
theorem value?_digit (value : Nat) : value? (digit value) = some (value % 16) := by
  have small : value % 16 < 16 := Nat.mod_lt _ (by decide)
  have closed : ∀ n : Fin 16, value? (digit n.val) = some n.val := by decide
  have collapse : digit value = digit (value % 16) := by simp [digit]
  rw [collapse]
  exact closed ⟨value % 16, small⟩

/-- Two digits, most significant first. -/
def octet (byte : UInt8) : List Char :=
  [digit (byte.toNat / 16), digit byte.toNat]

/-- The text of an octet string. -/
def text (bytes : List UInt8) : String :=
  String.ofList (bytes.flatMap octet)

/-- Four digits, most significant first. -/
def word (w : UInt16) : String :=
  String.ofList [digit (w.toNat / 4096), digit (w.toNat / 256), digit (w.toNat / 16), digit w.toNat]

/-- The octet whose digits have these values. -/
def join (high low : Nat) : UInt8 := UInt8.ofNat (16 * high + low)

@[simp] theorem join_digits (byte : UInt8) : join (byte.toNat / 16) (byte.toNat % 16) = byte := by
  rw [join, Nat.div_add_mod]
  exact UInt8.ofNat_toNat

/-- The number that digits write, the most significant first; `none` without a digit or on any
other character. -/
def number? : List Char → Option Nat
  | [] => none
  | digits => digits.foldlM (fun number c => (value? c).map (16 * number + ·)) 0

theorem number?_single (c : Char) : number? [c] = value? c := by
  cases read : value? c <;> simp [number?, read]

theorem number?_pair (high low : Char) :
    number? [high, low] = (value? high).bind fun high => (value? low).map (16 * high + ·) := by
  cases read : value? high <;> simp [number?, read]

/-- Reads an octet string; `none` on an odd count of digits or on any other character. -/
def octets? : List Char → Option (List UInt8)
  | [] => some []
  | [_] => none
  | high :: low :: rest => do
      let high ← value? high
      let low ← value? low
      return join high low :: (← octets? rest)

end TargetWakeTime.Hexadecimal
