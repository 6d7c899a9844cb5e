import TargetWakeTime.MacAddress
import Mathlib.Data.List.Forall2

/-!
Contract: which texts are read as an address.

Owns:
- the grammar of address text: six pairs of hexadecimal digits of either case with single colons
  between them, and the signed texts, in which a plus sign stands in place of the first digit of
  some pairs;
- that a text is read as an address exactly if it is of one of these two kinds;
- that every address is read from its own text, and that the text of the address that is read is the
  lower case of the text, unless it is a signed one, so that address text follows its grammar exactly
  where it is not signed.

The crux is `part?_eq_some_iff`: of all that the reader of numbers takes, a sign before a single digit
is what two bytes leave beside two digits.
-/

namespace TargetWakeTime

namespace Hexadecimal

variable {c : Char} {value : Nat}

/-- The hexadecimal digits of either case. -/
def IsDigit (c : Char) : Prop :=
  ('0' ≤ c ∧ c ≤ '9') ∨ ('a' ≤ c ∧ c ≤ 'f') ∨ ('A' ≤ c ∧ c ≤ 'F')

instance (c : Char) : Decidable (IsDigit c) := inferInstanceAs (Decidable (_ ∨ _ ∨ _))

theorem isSome_value?_iff : (value? c).isSome = true ↔ IsDigit c := by
  have codes (low high : Char) :
      (low ≤ c ∧ c ≤ high) ↔ (low.toNat ≤ c.toNat ∧ c.toNat ≤ high.toNat) := Iff.rfl
  rw [IsDigit, codes, codes, codes]
  unfold value?
  grind

theorem lt_of_value? (read : value? c = some value) : c.toNat < 128 := by
  unfold value? at read
  grind

/-- A digit that was read is written again in lower case, and takes one byte. -/
theorem digit_of_value? (read : value? c = some value) :
    value < 16 ∧ digit value = c.toLower ∧ c.utf8Size = 1 := by
  have closed : ∀ n : Fin 128, ∀ value ∈ value? (Char.ofNat n.val),
      value < 16 ∧ digit value = (Char.ofNat n.val).toLower ∧ (Char.ofNat n.val).utf8Size = 1 := by
    decide
  have found := closed ⟨c.toNat, lt_of_value? read⟩ value
  rw [Char.ofNat_toNat] at found
  exact found read

theorem octet_join {high low : Nat} (highSmall : high < 16) (lowSmall : low < 16) :
    octet (join high low) = [digit high, digit low] := by
  have written : (join high low).toNat = 16 * high + low := by
    rw [join, UInt8.toNat_ofNat']
    exact Nat.mod_eq_of_lt (by omega)
  have first : (16 * high + low) / 16 = high := by omega
  have last : digit (16 * high + low) = digit low := by
    have same : (16 * high + low) % 16 = low % 16 := by omega
    simp only [digit, same]
  rw [octet, written, first, last]

end Hexadecimal

namespace MacAddress

open Hexadecimal (IsDigit value?)

variable {s : String} {a : MacAddress} {first last : Char} {byte : UInt8} {part : List Char}
  {parts : List (List Char)} {bytes : List UInt8} {pairs others : List (Char × Char)}

/-! ### One octet -/

/-- The octet for which two characters stand: two digits, or a plus sign and a digit. -/
inductive Spells : Char → Char → UInt8 → Prop where
  | digits {first last : Char} {high low : Nat} (readHigh : value? first = some high)
      (readLow : value? last = some low) : Spells first last (Hexadecimal.join high low)
  | signed {last : Char} {low : Nat} (readLow : value? last = some low) :
      Spells '+' last (UInt8.ofNat low)

theorem unsigned_of_ne {rest : List Char} (signless : first ≠ '+') :
    unsigned (first :: rest) = first :: rest := by
  unfold unsigned
  split
  case h_1 same => exact absurd (List.cons.inj same).1 signless
  case h_2 => rfl

theorem octet?_single (signless : first ≠ '+') (read : octet? [first] = some byte) :
    first.utf8Size = 1 := by
  rw [octet?, unsigned_of_ne signless, Hexadecimal.number?_single] at read
  obtain ⟨value, found, -⟩ := Option.bind_eq_some_iff.mp read
  exact (Hexadecimal.digit_of_value? found).2.2

/-- A value below 256 is an octet. -/
theorem octet?_eq_some_iff : octet? part = some byte ↔
    ∃ value, Hexadecimal.number? (unsigned part) = some value ∧ value < 256 ∧
      byte = UInt8.ofNat value := by
  rw [octet?, Option.bind_eq_bind, Option.bind_eq_some_iff]
  refine exists_congr fun value => and_congr_right fun _ => ?_
  split
  case isTrue small => simp [small, eq_comm]
  case isFalse large => simp [large]

theorem octet?_pair_iff : octet? [first, last] = some byte ↔ Spells first last byte := by
  rw [octet?_eq_some_iff]
  by_cases signed : first = '+'
  case pos =>
    subst signed
    rw [unsigned, Hexadecimal.number?_single]
    constructor
    · rintro ⟨low, readLow, -, rfl⟩
      exact .signed readLow
    · intro spells
      cases spells with
      | digits readHigh => cases readHigh
      | @signed _ low readLow =>
          have small := (Hexadecimal.digit_of_value? readLow).1
          exact ⟨low, readLow, by omega, rfl⟩
  case neg =>
    rw [unsigned_of_ne signed, Hexadecimal.number?_pair]
    constructor
    · rintro ⟨value, read, -, rfl⟩
      obtain ⟨high, readHigh, rest⟩ := Option.bind_eq_some_iff.mp read
      obtain ⟨low, readLow, rfl⟩ := Option.map_eq_some_iff.mp rest
      exact .digits readHigh readLow
    · intro spells
      cases spells with
      | @digits _ _ high low readHigh readLow =>
          have highSmall := (Hexadecimal.digit_of_value? readHigh).1
          have lowSmall := (Hexadecimal.digit_of_value? readLow).1
          refine ⟨16 * high + low, ?_, by omega, rfl⟩
          rw [readHigh, Option.bind_some, readLow, Option.map_some]
      | signed => exact absurd rfl signed

theorem Spells.narrow (spells : Spells first last byte) :
    first.utf8Size = 1 ∧ last.utf8Size = 1 := by
  cases spells with
  | digits readHigh readLow =>
      exact ⟨(Hexadecimal.digit_of_value? readHigh).2.2, (Hexadecimal.digit_of_value? readLow).2.2⟩
  | signed readLow => exact ⟨rfl, (Hexadecimal.digit_of_value? readLow).2.2⟩

/-- What two bytes can hold that is read as an octet: two characters that stand for it. -/
theorem part?_eq_some_iff :
    part? part = some byte ↔ ∃ first last, part = [first, last] ∧ Spells first last byte := by
  unfold part?
  constructor
  · intro read
    split at read
    case isFalse => cases read
    case isTrue size =>
      match part with
      | [] => simp at size
      -- One character of two bytes is no digit.
      | [first] =>
          have signless : first ≠ '+' := by
            rintro rfl
            exact absurd size (by decide)
          have narrow := octet?_single signless read
          simp [narrow] at size
      | [first, last] => exact ⟨first, last, rfl, octet?_pair_iff.mp read⟩
      | first :: second :: third :: rest =>
          have one := first.utf8Size_pos
          have two := second.utf8Size_pos
          have three := third.utf8Size_pos
          simp only [String.ofList_cons, String.utf8ByteSize_append, String.utf8ByteSize_singleton]
            at size
          omega
  · rintro ⟨first, last, rfl, spells⟩
    obtain ⟨firstNarrow, lastNarrow⟩ := spells.narrow
    rw [if_pos (by simp [String.ofList_cons, firstNarrow, lastNarrow])]
    exact octet?_pair_iff.mpr spells

/-! ### Six octets -/

/-- Two characters each. -/
def characters (pairs : List (Char × Char)) : List (List Char) :=
  pairs.map fun pair => [pair.1, pair.2]

/-- Pairs of characters with single colons between them. -/
def spelling (pairs : List (Char × Char)) : List Char := [':'].intercalate (characters pairs)

/-- These pairs stand for these octets. -/
def SpellsAll : List (Char × Char) → List UInt8 → Prop :=
  List.Forall₂ fun pair byte => Spells pair.1 pair.2 byte

theorem mapM_part?_eq_some_iff : parts.mapM part? = some bytes ↔
    ∃ pairs, parts = characters pairs ∧ SpellsAll pairs bytes := by
  constructor
  · intro read
    induction parts generalizing bytes with
    | nil =>
        cases read
        exact ⟨[], rfl, .nil⟩
    | cons part rest inductionHypothesis =>
        simp only [List.mapM_cons, Option.bind_eq_bind, Option.bind_eq_some_iff, Option.pure_def,
          Option.some.injEq] at read
        obtain ⟨byte, readPart, bytes, readRest, rfl⟩ := read
        obtain ⟨first, last, rfl, spells⟩ := part?_eq_some_iff.mp readPart
        obtain ⟨pairs, rfl, spellsRest⟩ := inductionHypothesis readRest
        exact ⟨(first, last) :: pairs, rfl, .cons spells spellsRest⟩
  · rintro ⟨pairs, rfl, spellsAll⟩
    induction spellsAll with
    | nil => rfl
    | @cons pair byte pairs bytes spells _ inductionHypothesis =>
        have head : part? [pair.1, pair.2] = some byte := part?_eq_some_iff.mpr ⟨_, _, rfl, spells⟩
        show ([pair.1, pair.2] :: characters pairs).mapM part? = some (byte :: bytes)
        rw [List.mapM_cons, head, inductionHypothesis]
        rfl

theorem ofOctets?_eq_some_iff : ofOctets? bytes = some a ↔ bytes = a.octets := by
  constructor
  · intro six
    unfold ofOctets? at six
    split at six <;> cases six
    rfl
  · rintro rfl
    rfl

theorem parse_eq_ok_iff_ofText? : parse s = .ok a ↔ ofText? s = some a := by
  unfold parse
  cases ofText? s <;> simp

theorem Spells.plain (spells : Spells first last byte) : ':' ≠ first ∧ ':' ≠ last := by
  have noColon {c : Char} {value : Nat} (read : value? c = some value) : ':' ≠ c := by
    rintro rfl
    cases read
  cases spells with
  | digits readHigh readLow => exact ⟨noColon readHigh, noColon readLow⟩
  | signed readLow => exact ⟨by decide, noColon readLow⟩

theorem splitOn_spelling (filled : pairs ≠ [])
    (plain : ∀ pair ∈ pairs, ':' ≠ pair.1 ∧ ':' ≠ pair.2) :
    (spelling pairs).splitOn ':' = characters pairs := by
  refine List.splitOn_intercalate ':' ?_ (by simpa [characters] using filled)
  intro part member
  obtain ⟨pair, held, rfl⟩ := List.mem_map.mp member
  simp [plain pair held]

theorem SpellsAll.length_eq (spellsAll : SpellsAll pairs bytes) : pairs.length = bytes.length :=
  List.Forall₂.length_eq spellsAll

theorem SpellsAll.plain (spellsAll : SpellsAll pairs bytes) :
    ∀ pair ∈ pairs, ':' ≠ pair.1 ∧ ':' ≠ pair.2 := by
  induction spellsAll with
  | nil => simp
  | cons spells _ inductionHypothesis =>
      exact List.forall_mem_cons.mpr ⟨spells.plain, inductionHypothesis⟩

/-- A text is read as an address exactly if it spells the octets of the address. -/
theorem parse_eq_ok_iff :
    parse s = .ok a ↔ ∃ pairs, s.toList = spelling pairs ∧ SpellsAll pairs a.octets := by
  have six : a.octets.length = 6 := rfl
  rw [parse_eq_ok_iff_ofText?, ofText?, ofChars?, Option.bind_eq_some_iff]
  simp only [ofOctets?_eq_some_iff, exists_eq_right, mapM_part?_eq_some_iff]
  refine exists_congr fun pairs => and_congr_left fun spellsAll => ?_
  have filled : pairs ≠ [] := by
    rintro rfl
    cases spellsAll.length_eq
  constructor
  · intro apart
    rw [spelling, ← apart, List.intercalate_splitOn]
  · intro written
    rw [written, splitOn_spelling filled spellsAll.plain]

/-! ### Printed addresses -/

theorem spells_octet (byte : UInt8) :
    Spells (Hexadecimal.digit (byte.toNat / 16)) (Hexadecimal.digit byte.toNat) byte := by
  have bound : byte.toNat < 256 := byte.toNat_lt
  have high : byte.toNat / 16 % 16 = byte.toNat / 16 := Nat.mod_eq_of_lt (by omega)
  have spells := Spells.digits (Hexadecimal.value?_digit (byte.toNat / 16))
    (Hexadecimal.value?_digit byte.toNat)
  rwa [high, Hexadecimal.join_digits] at spells

/-- An address is read from its own text. -/
theorem parse_text (a : MacAddress) : parse a.text = .ok a := by
  refine parse_eq_ok_iff.mpr ⟨a.octets.map fun byte =>
    (Hexadecimal.digit (byte.toNat / 16), Hexadecimal.digit byte.toNat), ?_, ?_⟩
  · exact String.toList_ofList
  · exact List.forall₂_map_left_iff.mpr (List.forall₂_same.mpr fun byte _ => spells_octet byte)

/-- Printing an octet gives its two digits in lower case. -/
theorem Spells.octet_eq (spells : Spells first last byte) (signless : first ≠ '+') :
    Hexadecimal.octet byte = [first.toLower, last.toLower] := by
  cases spells with
  | signed => exact absurd rfl signless
  | digits readHigh readLow =>
      obtain ⟨highSmall, high, -⟩ := Hexadecimal.digit_of_value? readHigh
      obtain ⟨lowSmall, low, -⟩ := Hexadecimal.digit_of_value? readLow
      rw [Hexadecimal.octet_join highSmall lowSmall, high, low]

theorem SpellsAll.map_octet_eq (spellsAll : SpellsAll pairs bytes)
    (signless : ∀ pair ∈ pairs, pair.1 ≠ '+') :
    bytes.map Hexadecimal.octet = (characters pairs).map (·.map Char.toLower) := by
  induction spellsAll with
  | nil => rfl
  | @cons pair byte pairs bytes spells _ inductionHypothesis =>
      rw [List.forall_mem_cons] at signless
      rw [List.map_cons, spells.octet_eq signless.1, inductionHypothesis signless.2]
      rfl

theorem map_toLower_intercalate (parts : List (List Char)) :
    ([':'].intercalate parts).map Char.toLower = [':'].intercalate (parts.map (·.map Char.toLower)) := by
  induction parts with
  | nil => rfl
  | cons part rest inductionHypothesis =>
      cases rest with
      | nil => simp
      | cons next rest =>
          rw [List.intercalate_cons_cons, List.map_append, List.map_append, inductionHypothesis]
          exact List.intercalate_cons_cons.symm

theorem toList_toLower (s : String) : s.toLower.toList = s.toList.map Char.toLower :=
  String.toList_map

/-! ### The grammar -/

/-- A sign may stand in place of the first of two digits. -/
def Admits (first last : Char) : Prop := (IsDigit first ∨ first = '+') ∧ IsDigit last

/-- Six pairs of hexadecimal digits with single colons between them. -/
def IsHexadecimal (s : String) : Prop :=
  ∃ pairs, s.toList = spelling pairs ∧ pairs.length = 6 ∧
    ∀ pair ∈ pairs, IsDigit pair.1 ∧ IsDigit pair.2

/-- As above, but at least one pair has a plus sign for its first digit. -/
def IsSigned (s : String) : Prop :=
  ∃ pairs, s.toList = spelling pairs ∧ pairs.length = 6 ∧
    (∀ pair ∈ pairs, Admits pair.1 pair.2) ∧ ∃ pair ∈ pairs, pair.1 = '+'

/-- A text is read as an address exactly if it is six pairs of digits, and then the address has the
lower case of the text for its own. -/
def FollowsGrammar (s : String) : Prop :=
  ((∃ a, parse s = .ok a) ↔ IsHexadecimal s) ∧ ∀ a, parse s = .ok a → a.text = s.toLower

theorem exists_spells_iff : (∃ byte, Spells first last byte) ↔ Admits first last := by
  rw [Admits, ← Hexadecimal.isSome_value?_iff, ← Hexadecimal.isSome_value?_iff,
    Option.isSome_iff_exists, Option.isSome_iff_exists]
  constructor
  · rintro ⟨byte, spells⟩
    cases spells with
    | digits readHigh readLow => exact ⟨.inl ⟨_, readHigh⟩, _, readLow⟩
    | signed readLow => exact ⟨.inr rfl, _, readLow⟩
  · rintro ⟨⟨high, readHigh⟩ | rfl, low, readLow⟩
    · exact ⟨_, .digits readHigh readLow⟩
    · exact ⟨_, .signed readLow⟩

theorem exists_spellsAll_iff :
    (∃ bytes, SpellsAll pairs bytes) ↔ ∀ pair ∈ pairs, Admits pair.1 pair.2 := by
  induction pairs with
  | nil => exact ⟨fun _ => by simp, fun _ => ⟨[], .nil⟩⟩
  | cons pair rest inductionHypothesis =>
      rw [List.forall_mem_cons, ← inductionHypothesis, ← exists_spells_iff]
      constructor
      · rintro ⟨bytes, spellsAll⟩
        cases spellsAll with
        | cons spells spellsRest => exact ⟨⟨_, spells⟩, _, spellsRest⟩
      · rintro ⟨⟨byte, spells⟩, bytes, spellsRest⟩
        exact ⟨byte :: bytes, .cons spells spellsRest⟩

theorem exists_octets_iff : (∃ a : MacAddress, a.octets = bytes) ↔ bytes.length = 6 := by
  constructor
  · rintro ⟨a, rfl⟩
    rfl
  · intro six
    match bytes, six with
    | [first, second, third, fourth, fifth, sixth], _ =>
        exact ⟨⟨first, second, third, fourth, fifth, sixth⟩, rfl⟩

theorem exists_parse_eq_ok_iff : (∃ a, parse s = .ok a) ↔
    ∃ pairs, s.toList = spelling pairs ∧ pairs.length = 6 ∧ ∀ pair ∈ pairs, Admits pair.1 pair.2 := by
  simp only [parse_eq_ok_iff, ← exists_spellsAll_iff]
  constructor
  · rintro ⟨a, pairs, written, spellsAll⟩
    exact ⟨pairs, written, spellsAll.length_eq, _, spellsAll⟩
  · rintro ⟨pairs, written, six, bytes, spellsAll⟩
    obtain ⟨a, rfl⟩ := exists_octets_iff.mpr (spellsAll.length_eq.symm.trans six)
    exact ⟨a, pairs, written, spellsAll⟩

/-- Every text that is read is of one of the two kinds. -/
theorem exists_parse_iff : (∃ a, parse s = .ok a) ↔ IsHexadecimal s ∨ IsSigned s := by
  rw [exists_parse_eq_ok_iff]
  constructor
  · rintro ⟨pairs, written, six, admitted⟩
    by_cases signed : ∃ pair ∈ pairs, pair.1 = '+'
    case pos => exact .inr ⟨pairs, written, six, admitted, signed⟩
    case neg =>
      refine .inl ⟨pairs, written, six, fun pair member => ?_⟩
      obtain ⟨digit | sign, last⟩ := admitted pair member
      · exact ⟨digit, last⟩
      · exact absurd ⟨pair, member, sign⟩ signed
  · rintro (⟨pairs, written, six, digits⟩ | ⟨pairs, written, six, admitted, -⟩)
    · exact ⟨pairs, written, six, fun pair member => (digits pair member).imp_left .inl⟩
    · exact ⟨pairs, written, six, admitted⟩

theorem plain_of_admits (admitted : Admits first last) : ':' ≠ first ∧ ':' ≠ last := by
  obtain ⟨byte, spells⟩ := exists_spells_iff.mpr admitted
  exact spells.plain

/-- A text spells one list of pairs only. -/
theorem spelling_inj (filled : pairs ≠ []) (othersFilled : others ≠ [])
    (admitted : ∀ pair ∈ pairs, Admits pair.1 pair.2)
    (othersAdmitted : ∀ pair ∈ others, Admits pair.1 pair.2)
    (same : spelling pairs = spelling others) : pairs = others := by
  have apart : characters pairs = characters others := by
    rw [← splitOn_spelling filled fun pair member => plain_of_admits (admitted pair member), same,
      splitOn_spelling othersFilled fun pair member => plain_of_admits (othersAdmitted pair member)]
  refine List.map_injective_iff.mpr ?_ apart
  intro pair other same
  obtain ⟨first, rest⟩ := List.cons.inj same
  exact Prod.ext first (List.cons.inj rest).1

/-- No text is of both kinds. -/
theorem not_isHexadecimal_of_isSigned (signed : IsSigned s) : ¬IsHexadecimal s := by
  rintro ⟨others, spelled, othersSix, digits⟩
  obtain ⟨pairs, written, six, admitted, pair, member, sign⟩ := signed
  have same := spelling_inj (List.ne_nil_of_length_pos (by omega))
    (List.ne_nil_of_length_pos (by omega)) admitted
    (fun pair member => (digits pair member).imp_left .inl) (written.symm.trans spelled)
  have digit := (digits pair (same ▸ member)).1
  rw [sign] at digit
  exact absurd digit (by decide)

/-- A text without signs comes back in lower case. -/
theorem text_eq_toLower (read : parse s = .ok a) (unsigned : ¬IsSigned s) : a.text = s.toLower := by
  obtain ⟨pairs, written, spellsAll⟩ := parse_eq_ok_iff.mp read
  have signless : ∀ pair ∈ pairs, pair.1 ≠ '+' := by
    intro pair member sign
    exact unsigned ⟨pairs, written, spellsAll.length_eq, exists_spellsAll_iff.mp ⟨_, spellsAll⟩,
      pair, member, sign⟩
  rw [← String.toList_inj, text, String.toList_ofList, toList_toLower, written, spelling,
    map_toLower_intercalate, chars, spellsAll.map_octet_eq signless]

/-- Address text follows its grammar exactly where it has no sign, and every address is read from its
own text. -/
theorem followsGrammar_iff_unsigned (s : String) (a : MacAddress) :
    (FollowsGrammar s ↔ ¬IsSigned s) ∧ parse a.text = .ok a := by
  refine ⟨⟨fun follows signed => ?_, fun unsigned => ⟨?_, ?_⟩⟩, parse_text a⟩
  · have read := exists_parse_iff.mpr (.inr signed)
    exact not_isHexadecimal_of_isSigned signed (follows.1.mp read)
  · rw [exists_parse_iff]
    exact or_iff_left unsigned
  · exact fun a read => text_eq_toLower read unsigned

/-- A plus sign and a digit are read as an octet, which is printed as two digits. -/
theorem not_followsGrammar_plusSign : ¬FollowsGrammar "+1:00:00:00:00:00" := by
  intro follows
  have read : parse "+1:00:00:00:00:00" = .ok ⟨1, 0, 0, 0, 0, 0⟩ := by decide
  have printed := congrArg String.toList (follows.2 _ read)
  rw [toList_toLower] at printed
  exact absurd printed (by decide)

end MacAddress

end TargetWakeTime
