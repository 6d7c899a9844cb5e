import TargetWakeTime.Agreement.Key
import TargetWakeTime.Agreement.SetupCommand
import TargetWakeTime.Agreement.State
import TargetWakeTime.Host.Error

/-!
Contract: what can go wrong in TWT negotiation.

Owns the causes and their wording. Does not own the rules that raise them.
-/

namespace TargetWakeTime

/-- Parts of the negotiation that this stack does not take up. -/
inductive UnsupportedFeature where
  | broadcastNegotiation
  | tbttNegotiation
  | ndpPaging
  | unannouncedFlow
  | explicitTwt
  | protectedTwt
  | channelSpecific
deriving DecidableEq, Repr

def UnsupportedFeature.name : UnsupportedFeature → String
  | broadcastNegotiation => "broadcast negotiation"
  | tbttNegotiation => "TBTT interval negotiation"
  | ndpPaging => "NDP paging"
  | unannouncedFlow => "unannounced flow"
  | explicitTwt => "explicit TWT"
  | protectedTwt => "protected TWT (RAW)"
  | channelSpecific => "channel-specific TWT"

/-- Why octets are no TWT element. -/
inductive ElementDefect where
  | length (count : Nat)
  | parametersTruncated (count : Nat)
deriving DecidableEq, Repr

def ElementDefect.message : ElementDefect → String
  | length count => s!"length {count}"
  | parametersTruncated count => s!"parameter block truncated to {count} bytes"

/-- Why a value cannot be used for an agreement. -/
inductive ParameterDefect where
  | zeroInterval
  | intervalOutOfRange (micros : UInt64)
  | exponentOutOfRange (exponent : UInt8)
  | zeroDuration
  | durationOutOfRange (micros : UInt32)
  | notRequesterCommand (command : SetupCommand)
  | unresolvedKey (key : AgreementKey)
deriving DecidableEq, Repr

def ParameterDefect.message : ParameterDefect → String
  | zeroInterval => "zero wake interval"
  | intervalOutOfRange micros => s!"wake interval {micros}us out of range"
  | exponentOutOfRange exponent => s!"wake interval exponent {exponent}"
  | zeroDuration => "zero wake duration"
  | durationOutOfRange micros => s!"wake duration {micros}us out of range"
  | notRequesterCommand command => s!"{command.name} is not a requester command"
  | unresolvedKey key => s!"{key.text} scheduled without agreement data"

inductive Error where
  | malformedElement (defect : ElementDefect)
  | unsupported (feature : UnsupportedFeature)
  | noSlotAvailable
  | resourceExhausted
  /-- A queued answer was taken out while its flow was in a state that has no use for it. -/
  | unexpectedAnswer (command : SetupCommand) (state : AgreementState)
  | invalidFlow (flow : UInt8)
  | unknownStation (address : MacAddress)
  | requesterDisabled
  | agreementActive (flow : UInt8)
  | agreementNotActive (flow : UInt8)
  | invalidParameter (defect : ParameterDefect)
  | host (error : Host.CommandError)
deriving DecidableEq, Repr

def Error.message : Error → String
  | malformedElement defect => s!"malformed TWT element: {defect.message}"
  | unsupported feature => s!"unsupported TWT feature: {feature.name}"
  | noSlotAvailable => "no free slot in wake interval"
  | resourceExhausted => "TWT resources exhausted"
  | unexpectedAnswer command state =>
      s!"event not valid in state dequeue {command.name} in {state.name}"
  | invalidFlow flow => s!"invalid flow id {flow}"
  | unknownStation address => s!"unknown station {address.text}"
  | requesterDisabled => "TWT requester role is disabled"
  | agreementActive flow => s!"agreement already active for flow {flow}"
  | agreementNotActive flow => s!"no active agreement for flow {flow}"
  | invalidParameter defect => s!"invalid parameter: {defect.message}"
  | host error => error.message

end TargetWakeTime
