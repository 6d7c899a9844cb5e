import TargetWakeTime.Host.Header

/-!
Contract: the commands a host gives its chip, as frames.

Owns:
- the four commands and the frame of each;
- reading a frame as the chip does: header, declared length, message, then the message's own
  payload.

Agreements are padded with zeros to 20 octets behind a flow octet and a length octet. Octets beyond
what a command needs are ignored.
-/

namespace TargetWakeTime.Host

inductive Command where
  | healthCheck
  | install (vif : UInt16) (flow : UInt8) (agreement : List UInt8)
  | validate (vif : UInt16) (flow : UInt8) (agreement : List UInt8)
  | remove (vif : UInt16) (flow : UInt8)
deriving DecidableEq, Repr

namespace Command

/-- Octets that an agreement is padded to. -/
def agreementSize : Nat := 20

def message : Command → MessageId
  | healthCheck => .healthCheck
  | install .. => .installAgreement
  | validate .. => .validateAgreement
  | remove .. => .removeAgreement

def vif : Command → UInt16
  | healthCheck => 0
  | install vif .. | validate vif .. | remove vif _ => vif

/-- Flow octet, length octet, and the agreement padded with zeros. -/
def agreementPayload (flow : UInt8) (agreement : List UInt8) : Except CommandError (List UInt8) :=
  if agreement.length ≤ agreementSize then
    .ok (flow :: UInt8.ofNat agreement.length ::
      (agreement ++ List.replicate (agreementSize - agreement.length) 0))
  else
    .error (.malformed (.agreementTooLong agreement.length agreementSize))

def payload : Command → Except CommandError (List UInt8)
  | healthCheck => .ok []
  | install _ flow agreement | validate _ flow agreement => agreementPayload flow agreement
  | remove _ flow => .ok [flow]

/-- Octets of a command's payload, as the header declares them. -/
def payloadLength : Command → Nat
  | healthCheck => 0
  | install .. | validate .. => 2 + agreementSize
  | remove .. => 1

/-- The header of a command's request frame. It is made from the command alone, before there is a
payload. -/
def requestHeader (hostId : HostId) (c : Command) : Header where
  message := c.message.code
  length := UInt16.ofNat c.payloadLength
  flags := requestFlags
  vif := c.vif
  hostId := hostId

/-- The request frame of a command under a host identifier. -/
def encode (hostId : HostId) (c : Command) : Except CommandError (List UInt8) :=
  match c.payload with
  | .error error => .error error
  | .ok payload => .ok ((c.requestHeader hostId).encode ++ payload)

/-- Flow and agreement of an agreement payload. -/
def decodeAgreement : List UInt8 → Except CommandError (UInt8 × List UInt8)
  | flow :: length :: rest =>
      if rest.length < agreementSize then .error (.malformed .agreementTruncated)
      else if agreementSize < length.toNat then
        .error (.malformed (.agreementLength length.toNat))
      else .ok (flow, rest.take length.toNat)
  | _ => .error (.malformed .agreementTruncated)

/-- The command that a message with this payload gives. -/
def ofPayload (vif : UInt16) (message : MessageId) (payload : List UInt8) :
    Except CommandError Command :=
  match message with
  | .healthCheck => .ok .healthCheck
  | .installAgreement => do
      let (flow, agreement) ← decodeAgreement payload
      return .install vif flow agreement
  | .validateAgreement => do
      let (flow, agreement) ← decodeAgreement payload
      return .validate vif flow agreement
  | .removeAgreement =>
      match payload with
      | flow :: _ => .ok (.remove vif flow)
      | [] => .error (.malformed .missingFlow)

def decode (frame : List UInt8) : Except CommandError (Header × Command) := do
  let (header, payload) ← Header.decode frame
  if payload.length < header.length.toNat then
    throw (.malformed (.payloadTruncated payload.length header.length.toNat))
  let message ← MessageId.ofCode header.message
  let command ← ofPayload header.vif message payload
  return (header, command)

end Command

end TargetWakeTime.Host
