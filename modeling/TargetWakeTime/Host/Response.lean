import TargetWakeTime.Host.Header

/-!
Contract: what the chip sends back, as frames.

A response is a header, a four-octet status and a payload. The length in the header counts status
and payload and wraps at 16 bits; writing sets it, whatever the header held.
-/

namespace TargetWakeTime.Host

structure Response where
  header : Header
  status : UInt32
  payload : List UInt8
deriving DecidableEq, Repr

namespace Response

/-- Octets of the status. -/
def statusSize : Nat := 4

/-- The length that a header declares for a payload. -/
def declaredLength (payload : List UInt8) : UInt16 :=
  UInt16.ofNat (statusSize + payload.length)

/-- The chip's answer to a request. -/
def confirm (request : Header) (status : UInt32) (payload : List UInt8) : Response where
  header := { request with length := declaredLength payload, flags := confirmFlags }
  status := status
  payload := payload

def isConfirm (r : Response) : Bool := r.header.isConfirm

def encode (r : Response) : List UInt8 :=
  let header := { r.header with length := declaredLength r.payload }
  header.encode ++ LittleEndian.encode 4 r.status.toNat ++ r.payload

/-- Reads a response frame; octets beyond the declared length are ignored. -/
def decode (frame : List UInt8) : Except CommandError Response := do
  let (header, body) ← Header.decode frame
  let declared := header.length.toNat
  if declared < statusSize ∨ body.length < declared then
    throw (.malformed (.responseTruncated body.length declared))
  return {
    header := header
    status := UInt32.ofNat (LittleEndian.decode (body.take statusSize))
    payload := (body.drop statusSize).take (declared - statusSize) }

end Response

end TargetWakeTime.Host
