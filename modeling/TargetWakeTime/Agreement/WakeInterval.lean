import TargetWakeTime.Error
import TargetWakeTime.TimeUnit

/-!
Contract: wake intervals as mantissa and exponent, and wake durations as counts of units.

A mantissa has 16 bits and an exponent at most the value 31. An interval is split by halving it
until it fits the mantissa, so the exponent is the least that does; what the halvings drop is
lost.
-/

namespace TargetWakeTime.WakeInterval

def maximumExponent : Nat := 31

/-- Mantissa times two to the exponent, in microseconds; bits beyond the 64th are lost. -/
def micros (mantissa : UInt16) (exponent : Nat) : UInt64 :=
  UInt64.ofNat (mantissa.toNat <<< exponent)

/-- Halves a number until it fits 16 bits; the second component counts the halvings. -/
def halve (n : Nat) : Nat × Nat :=
  if n ≤ 65535 then (n, 0)
  else
    let (mantissa, exponent) := halve (n / 2)
    (mantissa, exponent + 1)
termination_by n
decreasing_by omega

theorem halve_fst_le (n : Nat) : (halve n).1 ≤ 65535 := by
  fun_induction halve n with
  | case1 n fits => exact fits
  | case2 n _ mantissa exponent halved inductionHypothesis =>
      rw [halved] at inductionHypothesis
      exact inductionHypothesis

/-- The mantissa is what is left of the number after as many halvings as the exponent says. -/
theorem halve_fst_eq (n : Nat) : (halve n).1 = n >>> (halve n).2 := by
  fun_induction halve n with
  | case1 n fits => simp
  | case2 n _ mantissa exponent halved inductionHypothesis =>
      rw [halved] at inductionHypothesis
      have step : mantissa = (n / 2) >>> exponent := inductionHypothesis
      rw [step, Nat.shiftRight_succ_inside]

/-- No smaller exponent brings the number down to 16 bits. -/
theorem lt_div_of_lt_halve (n exponent : Nat) (smaller : exponent < (halve n).2) :
    65535 < n >>> exponent := by
  fun_induction halve n generalizing exponent with
  | case1 n fits => exact absurd smaller (Nat.not_lt_zero _)
  | case2 n large mantissa count halved inductionHypothesis =>
      rw [halved] at inductionHypothesis
      cases exponent with
      | zero => simpa using Nat.lt_of_not_le large
      | succ exponent =>
          have step := inductionHypothesis exponent (Nat.lt_of_succ_lt_succ smaller)
          rwa [Nat.shiftRight_succ_inside]

structure Fields where
  mantissa : UInt16
  exponent : Nat
deriving DecidableEq, Repr

/-- Mantissa and exponent of an interval, unless the exponent would be too large. -/
def fields (interval : UInt64) : Except Error Fields :=
  let (mantissa, exponent) := halve interval.toNat
  if exponent ≤ maximumExponent then
    .ok ⟨UInt16.ofNat mantissa, exponent⟩
  else
    .error (.invalidParameter (.intervalOutOfRange interval))

end TargetWakeTime.WakeInterval

namespace TargetWakeTime.WakeDuration

/-- Units of 256 microseconds that cover a duration, unless they are more than 255. -/
def units (duration : UInt32) : Except Error UInt8 :=
  let units := (duration.toNat + (TimeUnit.fineMicros - 1)) / TimeUnit.fineMicros
  if units ≤ 255 then .ok (UInt8.ofNat units)
  else .error (.invalidParameter (.durationOutOfRange duration))

def ofUnits (units : UInt8) : UInt32 := UInt32.ofNat (units.toNat * TimeUnit.fineMicros)

def ofTimeUnits (units : UInt8) : UInt32 := UInt32.ofNat (units.toNat * TimeUnit.micros)

end TargetWakeTime.WakeDuration
