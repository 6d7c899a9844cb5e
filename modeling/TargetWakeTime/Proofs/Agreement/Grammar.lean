import TargetWakeTime.Proofs.Agreement.Legible

/-!
Contract: exactly which octet strings are elements, and what they stand for.

Owns:
- the grammar of element bodies, by octets and binary digits of the string itself;
- agreements whose fields keep to the grammar, and the values that the fields of an agreement stand
  for, as numbers;
- that reading accepts exactly the grammar, that what is read writes the octets it was read from,
  and that an agreement reads back exactly if its fields keep to the grammar and its values are
  those of the fields.

The octets behind the parameter set may be any, but they count for the length of the string.
-/

namespace TargetWakeTime.Agreement

variable {a : Agreement} {bytes : List UInt8}

/-! ### The grammar -/

def octet (index : Nat) (bytes : List UInt8) : UInt8 := bytes.getD index 0

/-- The request type follows the control octet, low octet first. -/
def requestWord (bytes : List UInt8) : Nat :=
  (octet 1 bytes).toNat + 256 * (octet 2 bytes).toNat

/-- An octet string is the body of an element that is taken up. -/
structure Grammatical (bytes : List UInt8) : Prop where
  complete : 15 ≤ bytes.length
  bounded : bytes.length ≤ 20
  ndpPaging : (octet 0 bytes).toNat.testBit 0 = false
  tbttNegotiation : (octet 0 bytes).toNat.testBit 2 = false
  broadcast : (octet 0 bytes).toNat.testBit 3 = false
  implicit : (requestWord bytes).testBit 5 = true
  flowType : (requestWord bytes).testBit 6 = false
  protection : (requestWord bytes).testBit 15 = false
  channel : octet 14 bytes = 0

/-- The fields of an agreement ask for nothing that is not taken up. -/
structure Supported (a : Agreement) : Prop where
  ndpPaging : a.control.ndpPaging = false
  tbttNegotiation : a.control.tbttNegotiation = false
  broadcast : a.control.broadcast = false
  implicit : a.parameters.requestType.implicit = true
  flowType : a.parameters.requestType.flowType = false
  protection : a.parameters.requestType.protection = false
  channel : a.parameters.channel = 0

/-- The values of an agreement, in microseconds, are those that its wire fields stand for. -/
structure Derived (a : Agreement) : Prop where
  wakeTime : a.wakeTime = a.parameters.wakeTime
  wakeInterval : a.wakeInterval.toNat =
    a.parameters.mantissa.toNat <<< a.parameters.requestType.exponent.val
  wakeDuration : a.wakeDuration.toNat =
    a.parameters.minimumDuration.toNat * if a.control.durationInTimeUnits then 1024 else 256

/-! ### Legible agreements, field by field -/

theorem unsupportedControl?_eq_none_iff {control : ControlField} :
    unsupportedControl? control = none ↔
      control.broadcast = false ∧ control.tbttNegotiation = false ∧ control.ndpPaging = false := by
  unfold unsupportedControl?
  cases control.broadcast <;> cases control.tbttNegotiation <;> cases control.ndpPaging <;> simp

theorem unsupportedParameters?_eq_none_iff {parameters : Parameters} :
    unsupportedParameters? parameters = none ↔
      parameters.requestType.flowType = false ∧ parameters.requestType.implicit = true ∧
        parameters.requestType.protection = false ∧ parameters.channel = 0 := by
  unfold unsupportedParameters?
  cases parameters.requestType.flowType <;> cases parameters.requestType.implicit <;>
    cases parameters.requestType.protection <;> simp

theorem supported_iff :
    a.Supported ↔ unsupportedControl? a.control = none ∧
      unsupportedParameters? a.parameters = none := by
  rw [unsupportedControl?_eq_none_iff, unsupportedParameters?_eq_none_iff]
  constructor
  · intro ⟨ndpPaging, tbttNegotiation, broadcast, implicit, flowType, protection, channel⟩
    exact ⟨⟨broadcast, tbttNegotiation, ndpPaging⟩, flowType, implicit, protection, channel⟩
  · intro ⟨⟨broadcast, tbttNegotiation, ndpPaging⟩, flowType, implicit, protection, channel⟩
    exact ⟨ndpPaging, tbttNegotiation, broadcast, implicit, flowType, protection, channel⟩

theorem derived_ofParameters (control : ControlField) (parameters : Parameters) :
    (ofParameters control parameters).Derived where
  wakeTime := rfl
  wakeInterval := toNat_micros parameters.mantissa parameters.requestType.exponent
  wakeDuration := by
    rw [ofParameters]
    dsimp only
    split
    · exact toNat_units parameters.minimumDuration (by decide)
    · exact toNat_units parameters.minimumDuration (by decide)

/-- There is one agreement with these fields whose values are those of the fields. -/
theorem derived_iff : a.Derived ↔ ofParameters a.control a.parameters = a := by
  constructor
  · intro derived
    have fields := derived_ofParameters a.control a.parameters
    have wakeInterval := UInt64.toNat_inj.mp (fields.wakeInterval.trans derived.wakeInterval.symm)
    have wakeDuration := UInt32.toNat_inj.mp (fields.wakeDuration.trans derived.wakeDuration.symm)
    have split : ofParameters a.control a.parameters =
        ⟨a.control, a.parameters, a.parameters.wakeTime,
          (ofParameters a.control a.parameters).wakeInterval,
          (ofParameters a.control a.parameters).wakeDuration⟩ := rfl
    rw [split, wakeInterval, wakeDuration, ← derived.wakeTime]
  · intro values
    exact values ▸ derived_ofParameters a.control a.parameters

theorem legible_iff : a.Legible ↔ a.Supported ∧ a.Derived := by
  rw [supported_iff, derived_iff]
  constructor
  · intro ⟨control, parameters, values⟩
    exact ⟨⟨control, parameters⟩, values⟩
  · intro ⟨⟨control, parameters⟩, values⟩
    exact ⟨control, parameters, values⟩

/-! ### Octets and fields -/

/-- Each binary digit of the control octet is a flag. -/
theorem testBit_toOctet (control : ControlField) :
    control.toOctet.toNat.testBit 0 = control.ndpPaging ∧
      control.toOctet.toNat.testBit 2 = control.tbttNegotiation ∧
      control.toOctet.toNat.testBit 3 = control.broadcast := by
  have back := control.ofOctet_toOctet
  rw [← Bit.lowest_div, ← Bit.lowest_div, ← Bit.lowest_div]
  refine ⟨?_, congrArg ControlField.tbttNegotiation back, congrArg ControlField.broadcast back⟩
  rw [show Nat.pow 2 0 = 1 from rfl, Nat.div_one]
  exact congrArg ControlField.ndpPaging back

theorem testBit_toNat (requestType : RequestType) :
    requestType.toNat.testBit 5 = requestType.implicit ∧
      requestType.toNat.testBit 6 = requestType.flowType ∧
      requestType.toNat.testBit 15 = requestType.protection := by
  have back := requestType.ofNat_toNat
  rw [← Bit.lowest_div, ← Bit.lowest_div, ← Bit.lowest_div]
  exact ⟨congrArg RequestType.implicit back, congrArg RequestType.flowType back,
    congrArg RequestType.protection back⟩

/-- An octet string that begins with the element of an agreement is grammatical if its length and
the fields are. -/
theorem grammatical_iff_of_take (written : a.element = bytes.take 15) :
    Grammatical bytes ↔ bytes.length ≤ 20 ∧ a.Supported := by
  have complete : 15 ≤ bytes.length := by
    have length : (bytes.take 15).length = 15 := by rw [← written, length_element]; rfl
    rw [List.length_take] at length
    omega
  have sameOctet (index : Nat) (inside : index < 15) : octet index bytes = octet index a.element := by
    rw [written, octet, octet, List.getD_eq_getElem?_getD, List.getD_eq_getElem?_getD,
      List.getElem?_take_of_lt inside]
  have control : octet 0 bytes = a.control.toOctet := sameOctet 0 (by decide)
  have channel : octet 14 bytes = a.parameters.channel := sameOctet 14 (by decide)
  have word : requestWord bytes = a.parameters.requestType.toNat := by
    have back : LittleEndian.decode (LittleEndian.encode 2 a.parameters.requestType.toNat) =
        a.parameters.requestType.toNat :=
      LittleEndian.decode_encode_of_lt a.parameters.requestType.toNat_lt
    rw [requestWord, sameOctet 1 (by decide), sameOctet 2 (by decide)]
    exact back
  obtain ⟨ndpPaging, tbttNegotiation, broadcast⟩ := testBit_toOctet a.control
  obtain ⟨implicit, flowType, protection⟩ := testBit_toNat a.parameters.requestType
  rw [← control] at ndpPaging tbttNegotiation broadcast
  rw [← word] at implicit flowType protection
  constructor
  · intro g
    exact ⟨g.bounded, ndpPaging ▸ g.ndpPaging, tbttNegotiation ▸ g.tbttNegotiation,
      broadcast ▸ g.broadcast, implicit ▸ g.implicit, flowType ▸ g.flowType,
      protection ▸ g.protection, channel ▸ g.channel⟩
  · intro ⟨bounded, supported⟩
    exact ⟨complete, bounded, ndpPaging.trans supported.ndpPaging,
      tbttNegotiation.trans supported.tbttNegotiation, broadcast.trans supported.broadcast,
      implicit.trans supported.implicit, flowType.trans supported.flowType,
      protection.trans supported.protection, channel.trans supported.channel⟩

/-! ### Reading -/

theorem exists_parameters (long : 14 ≤ bytes.length) : ∃ p, parameters? bytes = some p := by
  match bytes, long with
  | r₀ :: r₁ :: t₀ :: t₁ :: t₂ :: t₃ :: t₄ :: t₅ :: t₆ :: t₇ :: duration :: m₀ :: m₁ :: channel ::
      rest, _ => exact ⟨_, rfl⟩

/-- A parameter set writes the octets that it was read from. -/
theorem encode_of_parameters? {p : Parameters} (read : parameters? bytes = some p) :
    p.encode = bytes.take 14 := by
  unfold parameters? at read
  split at read
  case h_1 r₀ r₁ t₀ t₁ t₂ t₃ t₄ t₅ t₆ t₇ duration m₀ m₁ channel rest =>
    obtain rfl := Option.some.inj read
    have requestType : LittleEndian.encode 2 (LittleEndian.decode [r₀, r₁] % 65536) = [r₀, r₁] :=
      LittleEndian.encode_decode_mod [r₀, r₁] rfl
    have wakeTime : LittleEndian.encode 8
        (LittleEndian.decode [t₀, t₁, t₂, t₃, t₄, t₅, t₆, t₇] % 2 ^ 64) =
          [t₀, t₁, t₂, t₃, t₄, t₅, t₆, t₇] :=
      LittleEndian.encode_decode_mod [t₀, t₁, t₂, t₃, t₄, t₅, t₆, t₇] rfl
    have mantissa : LittleEndian.encode 2 (LittleEndian.decode [m₀, m₁] % 2 ^ 16) = [m₀, m₁] :=
      LittleEndian.encode_decode_mod [m₀, m₁] rfl
    simp only [Parameters.encode, RequestType.toNat_ofNat, UInt64.toNat_ofNat',
      UInt16.toNat_ofNat', requestType, wakeTime, mantissa]
    rfl
  case h_2 => cases read

/-- Reading takes in the first fifteen octets, and nothing else of the string but its length. -/
theorem parse_eq_ok_iff :
    parse bytes = .ok a ↔ bytes.length ≤ 20 ∧ a.element = bytes.take 15 ∧ a.Legible := by
  constructor
  · intro read
    have legible := legible_of_parse read
    obtain ⟨first, rest, parameters, rfl, bounded, -, found, -, rfl⟩ := exists_parts_of_parse read
    refine ⟨bounded, ?_, legible⟩
    rw [element, List.take_succ_cons, ← encode_of_parameters? found]
    exact congrArg (· :: parameters.encode) (ControlField.toOctet_ofOctet first)
  · rintro ⟨bounded, written, legible⟩
    have short : (bytes.drop 15).length ≤ 5 := by
      rw [List.length_drop]
      omega
    have read := legible.parse_append short
    rwa [written, List.take_append_drop] at read

/-- The first fifteen octets of a string that is long enough are the element of an agreement whose
values are those of its fields. -/
theorem exists_element_of_long (long : 15 ≤ bytes.length) :
    ∃ a : Agreement, a.element = bytes.take 15 ∧ a.Derived := by
  match bytes, long with
  | first :: rest, long =>
      have enough : 14 ≤ rest.length := Nat.le_of_succ_le_succ long
      obtain ⟨parameters, found⟩ := exists_parameters enough
      refine ⟨ofParameters (.ofOctet first) parameters, ?_, derived_ofParameters _ _⟩
      rw [element, List.take_succ_cons, ← encode_of_parameters? found]
      exact congrArg (· :: parameters.encode) (ControlField.toOctet_ofOctet first)

/-- Reading accepts exactly the grammatical octet strings. What is read writes the first fifteen
octets again. And an agreement reads back from its own element exactly if its fields ask for nothing
that is not taken up and its values are those of the fields. -/
theorem parse_accepts_grammar :
    (∀ bytes, (∃ a, parse bytes = .ok a) ↔ Grammatical bytes) ∧
      (∀ bytes a, parse bytes = .ok a → a.element = bytes.take 15) ∧
      ∀ a : Agreement, parse a.element = .ok a ↔ a.Supported ∧ a.Derived := by
  refine ⟨fun bytes => ?_, fun bytes a read => (parse_eq_ok_iff.mp read).2.1, fun a => ?_⟩
  · constructor
    · rintro ⟨a, read⟩
      obtain ⟨bounded, written, legible⟩ := parse_eq_ok_iff.mp read
      exact (grammatical_iff_of_take written).mpr ⟨bounded, (legible_iff.mp legible).1⟩
    · intro grammatical
      obtain ⟨a, written, derived⟩ := exists_element_of_long grammatical.complete
      have supported := ((grammatical_iff_of_take written).mp grammatical).2
      exact ⟨a, parse_eq_ok_iff.mpr
        ⟨grammatical.bounded, written, legible_iff.mpr ⟨supported, derived⟩⟩⟩
  · rw [← legible_iff]
    constructor
    · exact legible_of_parse
    · exact Legible.parse_element

/-- Five octets may follow an element, and are not looked at. -/
example : (parse ([0, 0x21, 0, 0, 0, 0, 0, 0, 0, 0, 0, 1, 0, 4, 0] ++ [1, 2, 3, 4, 5])).toOption.map
    element = some [0, 0x21, 0, 0, 0, 0, 0, 0, 0, 0, 0, 1, 0, 4, 0] := by
  decide +kernel

end TargetWakeTime.Agreement
