import TargetWakeTime.Bit
import TargetWakeTime.EventQueue
import TargetWakeTime.Station

/-!
Contract: the flows that an interface itself has asked its access point for.

Owns, for each of the eight flows, the state of its negotiation, the agreement once accepted, and
whether the chip runs it; and, for all of them, what is still to be done on the chip, the request
kept for the next association, and the token of the last request frame.
-/

namespace TargetWakeTime

structure Requester where
  slots : Slots := .empty
  /-- Whether the chip runs the agreement of a flow. -/
  installed : Vector Bool 8 := Vector.replicate 8 false
  /-- Setup events to install and teardown events to uninstall, in order. -/
  commands : EventQueue := {}
  /-- The request kept for the next association request. -/
  stored : Option Event := none
  dialogToken : UInt8 := 0
deriving DecidableEq, Repr

namespace Requester

def state (flow : UInt8) (r : Requester) : AgreementState := r.slots.state flow

def agreement? (flow : UInt8) (r : Requester) : Option Agreement := r.slots.agreement? flow

def setState (flow : UInt8) (state : AgreementState) (r : Requester) : Requester :=
  { r with slots := r.slots.setState flow state }

def setAgreement (flow : UInt8) (agreement : Option Agreement) (r : Requester) : Requester :=
  { r with slots := r.slots.setAgreement flow agreement }

/-- The flow that the low three bits of an octet name. -/
def flowIndex (flow : UInt8) : Fin 8 := Bit.lowThree flow.toNat

/-- Whether the chip runs a flow; only the low three bits of the octet count. -/
def isInstalled (flow : UInt8) (r : Requester) : Bool := r.installed[flowIndex flow]

def setInstalled (flow : UInt8) (value : Bool) (r : Requester) : Requester :=
  { r with installed := r.installed.set (flowIndex flow) value }

/-- The installed flows as a number with one binary digit for each flow, flow 0 lowest. -/
def bitmap (r : Requester) : Nat :=
  r.installed.toList.foldr (fun installed rest => installed.toNat + 2 * rest) 0

def pushCommand (event : Event) (r : Requester) : Requester :=
  { r with commands := r.commands.push event }

/-- Forgets all flows, and what was to be done on the chip with this peer, or with any. The stored
request stays. -/
def reset (peer : Option MacAddress) (r : Requester) : Requester :=
  { r with
    slots := .empty
    installed := Vector.replicate 8 false
    commands := r.commands.purge peer none }

end Requester

end TargetWakeTime
