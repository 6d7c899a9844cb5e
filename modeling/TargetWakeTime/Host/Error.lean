import TargetWakeTime.Hexadecimal

/-!
Contract: what can go wrong between the host and its chip.

Owns the causes, their wording, and how a failure of the link is reported to the sender of a
command. Does not own the rules that raise them.
-/

namespace TargetWakeTime.Host

/-- Why octets are not a frame, or a command has no frame. -/
inductive FrameDefect where
  | headerTruncated (present : Nat)
  | payloadTruncated (present declared : Nat)
  | unknownMessage (code : UInt16)
  | agreementTooLong (length limit : Nat)
  | agreementTruncated
  | agreementLength (length : Nat)
  | missingFlow
  | responseTruncated (present declared : Nat)
deriving DecidableEq, Repr

def FrameDefect.message : FrameDefect → String
  | headerTruncated present => s!"header truncated: {present} bytes"
  | payloadTruncated present declared => s!"payload truncated: {present} < {declared}"
  | unknownMessage code => s!"unknown message id 0x{Hexadecimal.word code}"
  | agreementTooLong length limit => s!"agreement of {length} bytes exceeds {limit}"
  | agreementTruncated => "agreement payload truncated"
  | agreementLength length => s!"agreement length {length}"
  | missingFlow => "missing flow id"
  | responseTruncated present declared =>
      s!"response body truncated: {present} of {declared} bytes"

/-- How sending a command, or handling what the chip sent, can fail. -/
inductive CommandError where
  | noTransport
  | allocationFailure
  | timeout
  | deviceError (status : UInt32)
  | staleResponse
  | malformed (defect : FrameDefect)
  | unsolicitedEvent (message : UInt16)
deriving DecidableEq, Repr

def CommandError.message : CommandError → String
  | noTransport => "no command transport available"
  | allocationFailure => "failed to allocate command buffer"
  | timeout => "command timed out"
  | deviceError status => s!"chip returned status {status}"
  | staleResponse => "response does not match any outstanding command"
  | malformed defect => s!"malformed command frame: {defect.message}"
  | unsolicitedEvent message =>
      s!"unsolicited event 0x{Hexadecimal.word message} on the command channel"

/-- How a link can fail to take a frame. -/
inductive LinkError where
  | down
  | noBuffer
  | io (reason : String)
deriving DecidableEq, Repr

def LinkError.message : LinkError → String
  | down => "link is down"
  | noBuffer => "no buffer available"
  | io reason => s!"link I/O error: {reason}"

/-- What the sender of a command is told when the link refuses its frame. -/
def LinkError.toCommandError : LinkError → CommandError
  | down | io _ => .noTransport
  | noBuffer => .allocationFailure

end TargetWakeTime.Host
