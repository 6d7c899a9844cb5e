import TargetWakeTime.Agreement.Element

/-!
Contract: agreements that read back from their own element.

Owns:
- legible agreements: nothing in them asks for what is not taken up, and their microsecond values are
  those that the wire fields stand for;
- that an element gives back a legible agreement, and that what is read from any element is legible;
- that an answer with a new wake time is legible.

Exponents are less than 32 and mantissas have 16 bits, so no interval loses a bit on the way.
-/

namespace TargetWakeTime.Agreement

structure Legible (a : Agreement) : Prop where
  control : unsupportedControl? a.control = none
  parameters : unsupportedParameters? a.parameters = none
  values : ofParameters a.control a.parameters = a

variable {a : Agreement}

theorem element_ne_nil (a : Agreement) : a.element ≠ [] :=
  List.ne_nil_of_length_pos (by rw [length_element]; decide)

/-- A legible agreement reads back from its own element, whatever follows within the bounds. -/
theorem Legible.parse_append (legible : a.Legible) {rest : List UInt8} (short : rest.length ≤ 5) :
    parse (a.element ++ rest) = .ok a := by
  have length : (a.element ++ rest).length = 15 + rest.length := by
    rw [List.length_append, length_element]
    rfl
  have fits : ¬ ((a.element ++ rest).length < minimumElementLength ∨
      maximumElementLength < (a.element ++ rest).length) := by
    rw [length, minimumElementLength, maximumElementLength]
    omega
  have read := parameters?_encode a.parameters rest
  unfold parse
  dsimp only
  rw [if_neg fits]
  simp only [element, List.cons_append, ControlField.ofOctet_toOctet, legible.control, read,
    legible.parameters, legible.values]

theorem Legible.parse_element (legible : a.Legible) : parse a.element = .ok a := by
  have nothing : ([] : List UInt8).length ≤ 5 := Nat.zero_le 5
  have read := legible.parse_append nothing
  rwa [List.append_nil] at read

/-- What is read of an element: the control octet, and the parameter set behind it. -/
theorem exists_parts_of_parse {bytes : List UInt8} (read : parse bytes = .ok a) :
    ∃ first rest parameters, bytes = first :: rest ∧ bytes.length ≤ maximumElementLength ∧
      unsupportedControl? (.ofOctet first) = none ∧ parameters? rest = some parameters ∧
      unsupportedParameters? parameters = none ∧ a = ofParameters (.ofOctet first) parameters := by
  unfold parse at read
  dsimp only at read
  split at read
  · cases read
  case isFalse fits =>
    split at read
    · cases read
    case h_2 first rest =>
      split at read
      · cases read
      case h_2 control =>
        split at read
        · cases read
        case h_2 parameters found =>
          split at read
          · cases read
          case h_2 supported =>
            obtain rfl := Except.ok.inj read
            exact ⟨first, rest, parameters, rfl, Nat.le_of_not_lt fun long => fits (.inr long),
              control, found, supported, rfl⟩

/-- What is read from any element is legible. -/
theorem legible_of_parse {bytes : List UInt8} (read : parse bytes = .ok a) : a.Legible := by
  obtain ⟨first, rest, parameters, -, -, control, -, supported, rfl⟩ := exists_parts_of_parse read
  exact ⟨control, supported, rfl⟩

/-- The command of an agreement, and the side that speaks, may be any. -/
theorem Legible.withCommand (legible : a.Legible) (command : SetupCommand) :
    (a.withCommand command).Legible where
  control := legible.control
  parameters := legible.parameters
  values := congrArg (Agreement.withCommand command) legible.values

/-! ### Answers -/

/-- An interval takes up no more than 47 bits. -/
theorem shiftLeft_lt (mantissa : UInt16) (exponent : Fin 32) :
    mantissa.toNat <<< exponent.val < 1 <<< 47 := by
  have power : 2 ^ exponent.val ≤ 2 ^ 31 :=
    Nat.pow_le_pow_right (by decide) (Nat.le_of_lt_succ exponent.isLt)
  calc mantissa.toNat <<< exponent.val
      = mantissa.toNat * 2 ^ exponent.val := Nat.shiftLeft_eq ..
    _ < 2 ^ 16 * 2 ^ 31 := Nat.mul_lt_mul_of_lt_of_le mantissa.toNat_lt power (by decide)
    _ = 1 <<< 47 := by decide

/-- No bit of an interval is lost. -/
theorem toNat_micros (mantissa : UInt16) (exponent : Fin 32) :
    (WakeInterval.micros mantissa exponent.val).toNat = mantissa.toNat <<< exponent.val := by
  rw [WakeInterval.micros, UInt64.toNat_ofNat', Nat.mod_eq_of_lt]
  exact Nat.lt_trans (shiftLeft_lt mantissa exponent) (by decide)

theorem micros_shiftRight (mantissa : UInt16) (exponent : Fin 32) :
    UInt16.ofNat ((WakeInterval.micros mantissa exponent.val).toNat >>> exponent.val) = mantissa := by
  rw [toNat_micros, Nat.shiftLeft_shiftRight, UInt16.ofNat_toNat]

/-- No bit of a duration is lost. -/
theorem toNat_units (units : UInt8) {unit : Nat} (small : unit ≤ 1024) :
    (UInt32.ofNat (units.toNat * unit)).toNat = units.toNat * unit := by
  have bound := units.toNat_lt
  have fits : units.toNat * unit < 2 ^ 32 := by
    calc units.toNat * unit ≤ 2 ^ 8 * 1024 := Nat.mul_le_mul (Nat.le_of_lt bound) small
      _ < 2 ^ 32 := by decide
  rw [UInt32.toNat_ofNat', Nat.mod_eq_of_lt fits]

theorem units_div (units : UInt8) {unit : Nat} (positive : 0 < unit) (small : unit ≤ 1024) :
    UInt8.ofNat ((UInt32.ofNat (units.toNat * unit)).toNat / unit) = units := by
  rw [toNat_units units small, Nat.mul_div_cancel _ positive, UInt8.ofNat_toNat]

/-- Writing the values back changes nothing of a legible agreement but its wake time. -/
theorem Legible.updateParameters_eq (legible : a.Legible) (wakeTime : UInt64) :
    { a with wakeTime }.updateParameters =
      ofParameters a.control { a.parameters with wakeTime } := by
  have interval : WakeInterval.micros a.parameters.mantissa a.parameters.requestType.exponent.val =
      a.wakeInterval := congrArg Agreement.wakeInterval legible.values
  have duration : (if a.control.durationInTimeUnits then
      WakeDuration.ofTimeUnits a.parameters.minimumDuration
      else WakeDuration.ofUnits a.parameters.minimumDuration) = a.wakeDuration :=
    congrArg Agreement.wakeDuration legible.values
  have mantissa := micros_shiftRight a.parameters.mantissa a.parameters.requestType.exponent
  have units : UInt8.ofNat (a.wakeDuration.toNat /
      if a.control.durationInTimeUnits then TimeUnit.micros else TimeUnit.fineMicros) =
        a.parameters.minimumDuration := by
    rw [← duration]
    split
    · exact units_div _ (by decide) (by decide)
    · exact units_div _ (by decide) (by decide)
  rw [interval] at mantissa
  simp only [updateParameters, ofParameters, interval, duration, mantissa, units]

/-- An agreement that goes out with a new wake time and a command has the parameter set of before, but
for these two. -/
theorem Legible.announced_eq (legible : a.Legible) (wakeTime : UInt64) (command : SetupCommand) :
    ({ a with wakeTime }.withCommand command).updateParameters =
      ofParameters a.control { (a.withCommand command).parameters with wakeTime } :=
  (legible.withCommand command).updateParameters_eq wakeTime

theorem Legible.announced (legible : a.Legible) (wakeTime : UInt64) (command : SetupCommand) :
    ({ a with wakeTime }.withCommand command).updateParameters.Legible := by
  rw [legible.announced_eq]
  exact ⟨legible.control, legible.parameters, rfl⟩

end TargetWakeTime.Agreement
