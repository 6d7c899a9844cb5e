import TargetWakeTime.Hexadecimal
import TargetWakeTime.LittleEndian

/-!
Contract: the 48-bit addresses that name stations and access points.

Owns:
- the type and its distinguished values;
- the text form, six octets of two lower-case digits joined by colons;
- the reader of that form, which takes a text apart at its colons and each octet for a number of two
  bytes, so that digits may be of either case and a plus sign may stand in place of the first one;
- the order by octets, first octet first.
-/

namespace TargetWakeTime

structure MacAddress where
  first : UInt8
  second : UInt8
  third : UInt8
  fourth : UInt8
  fifth : UInt8
  sixth : UInt8
deriving DecidableEq, Repr, Inhabited

namespace MacAddress

def octets (a : MacAddress) : List UInt8 :=
  [a.first, a.second, a.third, a.fourth, a.fifth, a.sixth]

/-- The address of these octets, if there are six. -/
def ofOctets? : List UInt8 → Option MacAddress
  | [a, b, c, d, e, f] => some ⟨a, b, c, d, e, f⟩
  | _ => none

@[simp] theorem ofOctets?_octets (a : MacAddress) : ofOctets? a.octets = some a := rfl

/-- All octets zero: no address yet. -/
def zero : MacAddress := ⟨0, 0, 0, 0, 0, 0⟩

def isZero (a : MacAddress) : Bool := a == zero

/-- Group addresses have the lowest bit of the first octet set. -/
def isMulticast (a : MacAddress) : Bool := a.first.toNat % 2 == 1

/-- The number that the octets write, the first octet most significant. -/
def toNat (a : MacAddress) : Nat := LittleEndian.decode a.octets.reverse

/-- Addresses order by their octets, the first octet first. -/
def le (a b : MacAddress) : Bool := a.toNat ≤ b.toNat

def sort (addresses : List MacAddress) : List MacAddress :=
  addresses.mergeSort le

/-- Two digits an octet, octets joined by colons. -/
def chars (a : MacAddress) : List Char :=
  List.intercalate [':'] (a.octets.map Hexadecimal.octet)

def text (a : MacAddress) : String := String.ofList a.chars

/-- What is left of a number without the plus sign that may stand before it. -/
def unsigned : List Char → List Char
  | '+' :: digits => digits
  | digits => digits

/-- The octet that hexadecimal digits write, with or without a plus sign before them. -/
def octet? (part : List Char) : Option UInt8 := do
  let value ← Hexadecimal.number? (unsigned part)
  if value < 256 then some (UInt8.ofNat value) else none

/-- One octet of address text takes two bytes. -/
def part? (part : List Char) : Option UInt8 :=
  if (String.ofList part).utf8ByteSize = 2 then octet? part else none

/-- Six octets with single colons between them, and nothing else. -/
def ofChars? (text : List Char) : Option MacAddress :=
  ((text.splitOn ':').mapM part?).bind ofOctets?

def ofText? (s : String) : Option MacAddress := ofChars? s.toList

/-- Why a text is refused as an address: the text itself is all that is reported. -/
structure InvalidText where
  text : String
deriving DecidableEq, Repr

def InvalidText.message (e : InvalidText) : String :=
  s!"invalid MAC address: {e.text}"

def parse (s : String) : Except InvalidText MacAddress :=
  match ofText? s with
  | some a => .ok a
  | none => .error ⟨s⟩

end MacAddress

end TargetWakeTime
