import TargetWakeTime.Agreement.Basic
import TargetWakeTime.Agreement.WakeInterval

/-!
Contract: reading a TWT element body, which is everything after the element's identifier and length.

Owns the order in which defects are found: the length first, then what the control octet asks for,
then a truncated parameter set, then what the request type and the channel ask for. Octets after the
parameter set are ignored.
-/

namespace TargetWakeTime.Agreement

def minimumElementLength : Nat := 10

def maximumElementLength : Nat := 20

/-- What a control octet asks for that is not taken up. -/
def unsupportedControl? (control : ControlField) : Option UnsupportedFeature :=
  if control.broadcast then some .broadcastNegotiation
  else if control.tbttNegotiation then some .tbttNegotiation
  else if control.ndpPaging then some .ndpPaging
  else none

/-- What a parameter set asks for that is not taken up. -/
def unsupportedParameters? (parameters : Parameters) : Option UnsupportedFeature :=
  if parameters.requestType.flowType then some .unannouncedFlow
  else if !parameters.requestType.implicit then some .explicitTwt
  else if parameters.requestType.protection then some .protectedTwt
  else if parameters.channel ≠ 0 then some .channelSpecific
  else none

/-- The parameter set at the front of an octet string, if the string is long enough. -/
def parameters? : List UInt8 → Option Parameters
  | r₀ :: r₁ :: t₀ :: t₁ :: t₂ :: t₃ :: t₄ :: t₅ :: t₆ :: t₇ :: duration :: m₀ :: m₁ :: channel ::
      _ =>
      some
        { requestType := .ofNat (LittleEndian.decode [r₀, r₁])
          wakeTime := UInt64.ofNat (LittleEndian.decode [t₀, t₁, t₂, t₃, t₄, t₅, t₆, t₇])
          minimumDuration := duration
          mantissa := UInt16.ofNat (LittleEndian.decode [m₀, m₁])
          channel := channel }
  | _ => none

/-- The agreement of a control octet and a parameter set, with the microsecond values that the wire
fields stand for. -/
def ofParameters (control : ControlField) (parameters : Parameters) : Agreement where
  control := control
  parameters := parameters
  wakeTime := parameters.wakeTime
  wakeInterval := WakeInterval.micros parameters.mantissa parameters.requestType.exponent.val
  wakeDuration :=
    if control.durationInTimeUnits then WakeDuration.ofTimeUnits parameters.minimumDuration
    else WakeDuration.ofUnits parameters.minimumDuration

def parse (bytes : List UInt8) : Except Error Agreement :=
  let malformedLength := Error.malformedElement (.length bytes.length)
  if bytes.length < minimumElementLength ∨ maximumElementLength < bytes.length then
    .error malformedLength
  else
    match bytes with
    | [] => .error malformedLength
    | first :: rest =>
        let control := ControlField.ofOctet first
        match unsupportedControl? control with
        | some feature => .error (.unsupported feature)
        | none =>
            match parameters? rest with
            | none => .error (.malformedElement (.parametersTruncated rest.length))
            | some parameters =>
                match unsupportedParameters? parameters with
                | some feature => .error (.unsupported feature)
                | none => .ok (ofParameters control parameters)

/-- A parameter set reads back from its own octets, whatever follows them. -/
theorem parameters?_encode (p : Parameters) (rest : List UInt8) :
    parameters? (p.encode ++ rest) = some p := by
  have requestType : LittleEndian.decode (LittleEndian.encode 2 p.requestType.toNat) =
      p.requestType.toNat := LittleEndian.decode_encode_of_lt p.requestType.toNat_lt
  have wakeTime : LittleEndian.decode (LittleEndian.encode 8 p.wakeTime.toNat) =
      p.wakeTime.toNat := LittleEndian.decode_encode_of_lt p.wakeTime.toNat_lt
  have mantissa : LittleEndian.decode (LittleEndian.encode 2 p.mantissa.toNat) =
      p.mantissa.toNat := LittleEndian.decode_encode_of_lt p.mantissa.toNat_lt
  simp only [LittleEndian.encode] at requestType wakeTime mantissa
  simp only [Parameters.encode, LittleEndian.encode, List.cons_append, List.nil_append,
    parameters?, requestType, wakeTime, mantissa, RequestType.ofNat_toNat, UInt64.ofNat_toNat,
    UInt16.ofNat_toNat]

end TargetWakeTime.Agreement
