import Mathlib.Algebra.Group.Nat.Defs
import TargetWakeTime.Agreement.SetupRequest
import TargetWakeTime.Proofs.Agreement.Legible

/-!
Contract: the agreements that local requests ask for.

Owns:
- which requests the wire fields can express: a mantissa and an exponent for the interval, units of
  256 microseconds for the duration;
- that exactly these requests yield an agreement, which reads back from its own element;
- how far the agreement is from what was requested: an interval loses what the halvings drop, which
  is less than one of the mantissa, and a duration is rounded up to the next unit.
-/

namespace TargetWakeTime

namespace WakeInterval

/-- Halving takes as many steps as the number has bits beyond the sixteenth. -/
theorem halve_snd_le_iff (n count : Nat) : (halve n).2 ≤ count ↔ n < 2 ^ (16 + count) := by
  constructor
  · intro few
    have small : n / 2 ^ (halve n).2 < 2 ^ 16 := by
      rw [← Nat.shiftRight_eq_div_pow, ← halve_fst_eq]
      exact Nat.lt_succ_of_le (halve_fst_le n)
    calc n < 2 ^ 16 * 2 ^ (halve n).2 := (Nat.div_lt_iff_lt_mul (Nat.two_pow_pos _)).mp small
      _ ≤ 2 ^ 16 * 2 ^ count := Nat.mul_le_mul_left _ (Nat.pow_le_pow_right (by decide) few)
      _ = 2 ^ (16 + count) := (Nat.pow_add ..).symm
  · intro small
    refine Nat.le_of_not_lt fun many => ?_
    have large : 2 ^ 16 ≤ n / 2 ^ count := by
      rw [← Nat.shiftRight_eq_div_pow]
      exact lt_div_of_lt_halve n count many
    have beyond : 2 ^ 16 * 2 ^ count ≤ n := (Nat.le_div_iff_mul_le (Nat.two_pow_pos _)).mp large
    rw [← Nat.pow_add] at beyond
    exact Nat.not_lt.mpr beyond small

/-- Halving never goes down to zero: it stops at 16 bits. -/
theorem halve_fst_pos_iff (n : Nat) : 0 < (halve n).1 ↔ 0 < n := by
  fun_induction halve n with
  | case1 n fits => exact Iff.rfl
  | case2 n large mantissa exponent halved inductionHypothesis =>
      rw [halved] at inductionHypothesis
      have step : 0 < mantissa ↔ 0 < n / 2 := inductionHypothesis
      show 0 < mantissa ↔ 0 < n
      omega

/-- A number rounded down to a mantissa and an exponent, of which the exponent is the least one that
brings the number down to 16 bits. -/
structure Splits (n mantissa exponent : Nat) : Prop where
  lower : mantissa * 2 ^ exponent ≤ n
  upper : n < (mantissa + 1) * 2 ^ exponent
  fits : n >>> exponent ≤ 65535
  least : ∀ smaller < exponent, 65535 < n >>> smaller

theorem splits_halve (n : Nat) : Splits n (halve n).1 (halve n).2 := by
  have quotient : (halve n).1 = n / 2 ^ (halve n).2 := by
    rw [halve_fst_eq, Nat.shiftRight_eq_div_pow]
  refine ⟨?_, ?_, ?_, lt_div_of_lt_halve n⟩
  · rw [quotient]
    exact Nat.div_mul_le_self ..
  · rw [quotient, Nat.mul_comm]
    exact Nat.lt_mul_div_succ n (Nat.two_pow_pos _)
  · rw [← halve_fst_eq]
    exact halve_fst_le n

theorem fields_eq_ok_iff {interval : UInt64} {found : Fields} :
    fields interval = .ok found ↔
      interval.toNat < 2 ^ 47 ∧
        found = ⟨UInt16.ofNat (halve interval.toNat).1, (halve interval.toNat).2⟩ := by
  have few := halve_snd_le_iff interval.toNat maximumExponent
  unfold fields
  dsimp only
  split
  case isTrue small =>
    constructor
    · intro same
      exact ⟨few.mp small, (Except.ok.inj same).symm⟩
    · rintro ⟨-, rfl⟩
      rfl
  case isFalse large =>
    constructor
    · intro failed
      cases failed
    · rintro ⟨small, -⟩
      exact absurd (few.mpr small) large

theorem toNat_ofNat_halve (n : Nat) : (UInt16.ofNat (halve n).1).toNat = (halve n).1 := by
  rw [UInt16.toNat_ofNat', Nat.mod_eq_of_lt (Nat.lt_succ_of_le (halve_fst_le n))]

end WakeInterval

/-- Units are what covers a duration, if they are no more than an octet holds. -/
theorem WakeDuration.units_eq_ok_iff {duration : UInt32} {units : UInt8} :
    WakeDuration.units duration = .ok units ↔ (duration.toNat + 255) / 256 = units.toNat := by
  have bound := units.toNat_lt
  show (if (duration.toNat + 255) / 256 ≤ 255 then
    Except.ok (UInt8.ofNat ((duration.toNat + 255) / 256)) else _) = _ ↔ _
  split
  case isTrue small =>
    have kept : (UInt8.ofNat ((duration.toNat + 255) / 256)).toNat = (duration.toNat + 255) / 256 := by
      rw [UInt8.toNat_ofNat', Nat.mod_eq_of_lt (Nat.lt_succ_of_le small)]
    constructor
    · intro same
      rw [← Except.ok.inj same, kept]
    · intro same
      rw [same, UInt8.ofNat_toNat]
  case isFalse large =>
    constructor
    · intro failed
      cases failed
    · intro same
      omega

/-- The interval that is asked for, in microseconds. -/
def WakeIntervalSpec.requested : WakeIntervalSpec → Nat
  | .micros interval => interval.toNat
  | .explicit mantissa exponent => mantissa.toNat * 2 ^ exponent.toNat

/-- Intervals for which 16 bits of mantissa and an exponent up to 31 are enough. -/
def WakeIntervalSpec.InRange : WakeIntervalSpec → Prop
  | .micros interval => interval.toNat < 2 ^ 47
  | .explicit _ exponent => exponent.toNat ≤ 31

namespace SetupRequest

/-- The requests that the wire fields can express. -/
structure Expressible (r : SetupRequest) : Prop where
  flow : r.flow.toNat ≤ 7
  interval : 0 < r.interval.requested
  intervalInRange : r.interval.InRange
  duration : 1 ≤ r.duration.toNat
  durationInRange : r.duration.toNat ≤ 65280

/-- An agreement with all that was requested, as far as the wire fields can express it, that whoever
reads its element has as well. -/
structure Encodes (r : SetupRequest) (a : Agreement) : Prop where
  readsBack : Agreement.parse a.element = .ok a
  flow : a.flow = r.flow
  command : a.command = r.command
  wakeTime : a.wakeTime = r.targetTime
  interval : a.wakeInterval.toNat =
    a.parameters.mantissa.toNat * 2 ^ a.parameters.requestType.exponent.val
  explicitInterval : ∀ mantissa exponent, r.interval = .explicit mantissa exponent →
    a.parameters.mantissa = mantissa ∧ a.parameters.requestType.exponent.val = exponent.toNat
  microsInterval : ∀ interval, r.interval = .micros interval →
    WakeInterval.Splits interval.toNat a.parameters.mantissa.toNat
      a.parameters.requestType.exponent.val
  durationCovers : r.duration.toNat ≤ a.wakeDuration.toNat
  durationLessThanUnitLonger : a.wakeDuration.toNat < r.duration.toNat + 256

/-- The parameter set that asks for what is requested, with these fields for interval and
duration. -/
def parameters (r : SetupRequest) (fields : WakeInterval.Fields) (units : UInt8) : Parameters where
  requestType := RequestType.withCommand r.command
    { RequestType.zero with
      implicit := true
      flow := Bit.lowThree r.flow.toNat
      exponent := Bit.lowFive fields.exponent }
  wakeTime := r.targetTime
  minimumDuration := units
  mantissa := fields.mantissa
  channel := 0

/-- A request passes all checks with these fields. -/
structure Yields (r : SetupRequest) (fields : WakeInterval.Fields) (units : UInt8) : Prop where
  flow : r.flow.toNat < 8
  found : r.intervalFields = .ok fields
  interval : WakeInterval.micros fields.mantissa fields.exponent ≠ 0
  duration : WakeDuration.units r.duration = .ok units
  someUnits : units ≠ 0

variable {r : SetupRequest} {fields : WakeInterval.Fields} {units : UInt8} {a : Agreement}

theorem exponent_le_of_intervalFields (found : r.intervalFields = .ok fields) :
    fields.exponent ≤ 31 := by
  unfold intervalFields at found
  split at found
  · obtain ⟨inRange, rfl⟩ := WakeInterval.fields_eq_ok_iff.mp found
    exact (WakeInterval.halve_snd_le_iff _ 31).mpr inRange
  · split at found
    case isTrue small =>
      obtain rfl := Except.ok.inj found
      exact small
    case isFalse => cases found

theorem Yields.exponent_val (yields : r.Yields fields units) :
    (Bit.lowFive fields.exponent).val = fields.exponent :=
  Nat.mod_eq_of_lt (Nat.lt_succ_of_le (exponent_le_of_intervalFields yields.found))

/-- All there is to building an agreement: the checks, and the parameter set with nothing that is not
taken up. -/
theorem build_eq_ok_iff : r.build = .ok a ↔
    ∃ fields units, r.Yields fields units ∧ a = .ofParameters .zero (r.parameters fields units) := by
  constructor
  · intro built
    unfold build at built
    simp only [bind, Except.bind, pure, Except.pure, throw, throwThe, MonadExceptOf.throw] at built
    split at built
    case isTrue => cases built
    case isFalse small =>
      split at built
      case h_1 => cases built
      case h_2 fields found =>
        split at built
        case isTrue => cases built
        case isFalse nonzero =>
          split at built
          case h_1 => cases built
          case h_2 units covers =>
            split at built
            case isTrue => cases built
            case isFalse someUnits =>
              obtain rfl := Except.ok.inj built
              have yields : r.Yields fields units :=
                ⟨not_seven_lt_iff.mp small, found, nonzero, covers, someUnits⟩
              refine ⟨fields, units, yields, ?_⟩
              simp only [Agreement.ofParameters, parameters, RequestType.withCommand,
                yields.exponent_val]
              rfl
  · rintro ⟨fields, units, yields, rfl⟩
    have small : ¬ 7 < r.flow := not_seven_lt_iff.mpr yields.flow
    simp only [build, bind, Except.bind, pure, Except.pure, if_neg small, yields.found,
      if_neg yields.interval, yields.duration, if_neg yields.someUnits, Agreement.ofParameters,
      parameters, RequestType.withCommand, yields.exponent_val]
    rfl

theorem Yields.flow_eq (yields : r.Yields fields units) :
    (Agreement.ofParameters .zero (r.parameters fields units)).flow = r.flow := by
  show UInt8.ofNat (r.flow.toNat % 8) = r.flow
  rw [Nat.mod_eq_of_lt yields.flow, UInt8.ofNat_toNat]

/-- A local request asks for a legible agreement for its own flow. -/
theorem legible_build (built : r.build = .ok a) :
    a.Legible ∧ a.flow = r.flow ∧ r.flow.toNat < 8 := by
  obtain ⟨fields, units, yields, rfl⟩ := build_eq_ok_iff.mp built
  exact ⟨⟨rfl, rfl, rfl⟩, yields.flow_eq, yields.flow⟩

/-! ### Intervals -/

/-- An interval is zero only if its mantissa is. -/
theorem micros_ne_zero_iff {mantissa : UInt16} {exponent : Nat} (small : exponent ≤ 31) :
    WakeInterval.micros mantissa exponent ≠ 0 ↔ 0 < mantissa.toNat := by
  have value := Agreement.toNat_micros mantissa ⟨exponent, Nat.lt_succ_of_le small⟩
  rw [Nat.shiftLeft_eq] at value
  have positive := Nat.two_pow_pos exponent
  constructor
  · intro nonzero
    refine Nat.pos_of_ne_zero fun zero => ?_
    rw [zero, Nat.zero_mul] at value
    exact nonzero (UInt64.toNat_inj.mp value)
  · intro some zero
    rw [zero] at value
    exact Nat.ne_of_gt (Nat.mul_pos some positive) value.symm

/-- The fields of an interval exist if it is in range, and their mantissa is zero only if the interval
is. -/
theorem intervalFields_iff (r : SetupRequest) :
    (∃ fields, r.intervalFields = .ok fields ∧ 0 < fields.mantissa.toNat) ↔
      0 < r.interval.requested ∧ r.interval.InRange := by
  unfold intervalFields
  cases r.interval with
  | micros interval =>
      have positive := WakeInterval.halve_fst_pos_iff interval.toNat
      have mantissa := WakeInterval.toNat_ofNat_halve interval.toNat
      constructor
      · rintro ⟨fields, found, nonzero⟩
        obtain ⟨inRange, rfl⟩ := WakeInterval.fields_eq_ok_iff.mp found
        exact ⟨positive.mp (mantissa ▸ nonzero), inRange⟩
      · rintro ⟨nonzero, inRange⟩
        exact ⟨_, WakeInterval.fields_eq_ok_iff.mpr ⟨inRange, rfl⟩,
          mantissa.symm ▸ positive.mpr nonzero⟩
  | explicit mantissa exponent =>
      have positive : 0 < mantissa.toNat * 2 ^ exponent.toNat ↔ 0 < mantissa.toNat :=
        Nat.mul_pos_iff_of_pos_right (Nat.two_pow_pos _)
      constructor
      · rintro ⟨fields, found, nonzero⟩
        dsimp only at found
        split at found
        case isTrue small =>
          obtain rfl := Except.ok.inj found
          exact ⟨positive.mpr nonzero, small⟩
        case isFalse => cases found
      · rintro ⟨nonzero, small⟩
        exact ⟨⟨mantissa, exponent.toNat⟩, if_pos small, positive.mp nonzero⟩

/-! ### Durations -/

/-- There are units for a duration, and some, if it is at least a microsecond and at most 255
units. -/
theorem duration_iff (duration : UInt32) :
    (∃ units, WakeDuration.units duration = .ok units ∧ units ≠ 0) ↔
      1 ≤ duration.toNat ∧ duration.toNat ≤ 65280 := by
  constructor
  · rintro ⟨units, found, nonzero⟩
    have covers := WakeDuration.units_eq_ok_iff.mp found
    have bound := units.toNat_lt
    have positive : units.toNat ≠ 0 := fun zero => nonzero (UInt8.toNat_inj.mp zero)
    omega
  · rintro ⟨positive, small⟩
    have kept : (UInt8.ofNat ((duration.toNat + 255) / 256)).toNat = (duration.toNat + 255) / 256 := by
      rw [UInt8.toNat_ofNat']
      omega
    refine ⟨_, WakeDuration.units_eq_ok_iff.mpr kept.symm, fun zero => ?_⟩
    rw [zero] at kept
    have none : (duration.toNat + 255) / 256 = 0 := kept.symm
    omega

theorem Yields.duration_within_unit (yields : r.Yields fields units) :
    r.duration.toNat ≤ (WakeDuration.ofUnits units).toNat ∧
      (WakeDuration.ofUnits units).toNat < r.duration.toNat + 256 := by
  have covers := WakeDuration.units_eq_ok_iff.mp yields.duration
  have total : (WakeDuration.ofUnits units).toNat = units.toNat * 256 :=
    Agreement.toNat_units units (by decide)
  omega

/-! ### Requests -/

theorem build_ok_iff (r : SetupRequest) : (∃ a, r.build = .ok a) ↔ r.Expressible := by
  constructor
  · rintro ⟨a, built⟩
    obtain ⟨fields, units, yields, -⟩ := build_eq_ok_iff.mp built
    have small := exponent_le_of_intervalFields yields.found
    obtain ⟨interval, intervalInRange⟩ :=
      (intervalFields_iff r).mp ⟨fields, yields.found, (micros_ne_zero_iff small).mp yields.interval⟩
    obtain ⟨duration, durationInRange⟩ :=
      (duration_iff r.duration).mp ⟨units, yields.duration, yields.someUnits⟩
    exact ⟨Nat.le_of_lt_succ yields.flow, interval, intervalInRange, duration, durationInRange⟩
  · intro expressible
    obtain ⟨fields, found, nonzero⟩ :=
      (intervalFields_iff r).mpr ⟨expressible.interval, expressible.intervalInRange⟩
    obtain ⟨units, covers, someUnits⟩ :=
      (duration_iff r.duration).mpr ⟨expressible.duration, expressible.durationInRange⟩
    have small := exponent_le_of_intervalFields found
    have yields : r.Yields fields units :=
      ⟨Nat.lt_succ_of_le expressible.flow, found, (micros_ne_zero_iff small).mpr nonzero, covers,
        someUnits⟩
    exact ⟨_, build_eq_ok_iff.mpr ⟨fields, units, yields, rfl⟩⟩

theorem Yields.encodes (yields : r.Yields fields units) :
    r.Encodes (.ofParameters .zero (r.parameters fields units)) where
  readsBack := Agreement.Legible.parse_element ⟨rfl, rfl, rfl⟩
  flow := yields.flow_eq
  command := rfl
  wakeTime := rfl
  interval := (Agreement.toNat_micros ..).trans (Nat.shiftLeft_eq ..)
  explicitInterval := by
    intro mantissa exponent given
    have found := yields.found
    rw [intervalFields, given] at found
    dsimp only at found
    split at found
    case isTrue small =>
      have same := Except.ok.inj found
      refine ⟨congrArg WakeInterval.Fields.mantissa same.symm, ?_⟩
      exact yields.exponent_val.trans (congrArg WakeInterval.Fields.exponent same.symm)
    case isFalse => cases found
  microsInterval := by
    intro interval given
    have found := yields.found
    rw [intervalFields, given] at found
    have exponent := yields.exponent_val
    obtain ⟨-, rfl⟩ := WakeInterval.fields_eq_ok_iff.mp found
    show WakeInterval.Splits interval.toNat (UInt16.ofNat (WakeInterval.halve interval.toNat).1).toNat
      (Bit.lowFive (WakeInterval.halve interval.toNat).2).val
    rw [exponent, WakeInterval.toNat_ofNat_halve]
    exact WakeInterval.splits_halve interval.toNat
  durationCovers := yields.duration_within_unit.1
  durationLessThanUnitLonger := yields.duration_within_unit.2

/-- A request yields an agreement exactly if its flow is one of the eight, its interval is nonzero and
in range, and its duration is between a microsecond and 255 units. The agreement then reads back from
its element, lasts less than a unit longer than requested, and has the interval that is left once as
few low bits as possible are dropped. -/
theorem build_encodes (r : SetupRequest) :
    ((∃ a, r.build = .ok a) ↔ r.Expressible) ∧ ∀ a, r.build = .ok a → r.Encodes a := by
  refine ⟨build_ok_iff r, fun a built => ?_⟩
  obtain ⟨fields, units, yields, rfl⟩ := build_eq_ok_iff.mp built
  exact yields.encodes

/-- The longest interval that can be given in microseconds, and the longest duration. -/
theorem build_encodes_longest :
    let r : SetupRequest := { flow := 7, interval := .micros 0x7fffffffffff, duration := 65280 }
    r.Expressible ∧ ∃ a, r.build = .ok a ∧ r.Encodes a := by
  intro r
  have expressible : r.Expressible :=
    ⟨by decide, by decide, by show _ < _; decide, by decide, by decide⟩
  obtain ⟨exactly, encodes⟩ := build_encodes r
  obtain ⟨a, built⟩ := exactly.mpr expressible
  exact ⟨expressible, a, built, encodes a built⟩

end SetupRequest

end TargetWakeTime
