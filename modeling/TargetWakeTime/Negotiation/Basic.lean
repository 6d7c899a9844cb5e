import TargetWakeTime.Association
import TargetWakeTime.Negotiation.Requester
import TargetWakeTime.Schedule
import TargetWakeTime.StationTable

/-!
Contract: the negotiation state of one interface.

Owns:
- the state: roles, stations, schedule, queued events and answers, the requester's own flows, the
  link, and the deferred work that operations leave behind;
- queueing events and deferring work.

The state never acts on anything outside itself. Frames to transmit and commands to the chip are
deferred as tasks, in the order in which they came up.
-/

namespace TargetWakeTime

/-- Work that an operation leaves to be done outside the negotiation state. -/
inductive Task where
  | sendSetup (destination : MacAddress) (token : UInt8) (element : List UInt8) (flow : UInt8)
  | sendTeardown (destination : MacAddress) (flow : UInt8)
  /-- Carry out on the chip what the requester's flows need. -/
  | applyCommands
  | handleEvents (source : Option MacAddress)
  | retryEvents
deriving DecidableEq, Repr

namespace Negotiation

structure Settings where
  requester : Bool := false
  responder : Bool := false
  maximumStations : Nat := 64
  /-- Milliseconds until events that found no place are tried again. -/
  retryBackoff : Nat := 100
deriving DecidableEq, Repr

/-- An access point answers requests. -/
def Settings.accessPoint : Settings := { responder := true }

/-- A station makes requests. -/
def Settings.station : Settings := { requester := true }

end Negotiation

structure Negotiation where
  settings : Negotiation.Settings
  /-- Whether the interface may ask for agreements; a forced installation turns this on. -/
  requester : Bool
  responder : Bool
  stations : StationTable
  schedule : Schedule := {}
  events : EventQueue := {}
  /-- Answers that wait for an association response. -/
  answers : EventQueue := {}
  own : Requester := {}
  link : Association := {}
  tasks : List Task := []
deriving DecidableEq, Repr

namespace Negotiation

def new (settings : Settings) : Negotiation where
  settings := settings
  requester := settings.requester
  responder := settings.responder
  stations := { capacity := settings.maximumStations }

def defer (task : Task) (n : Negotiation) : Negotiation :=
  { n with tasks := n.tasks ++ [task] }

def takeTasks (n : Negotiation) : List Task × Negotiation := (n.tasks, { n with tasks := [] })

/-- Queues an event in place of an unhandled one of the same source and flow. -/
def queueEvent (event : Event) (n : Negotiation) : Negotiation :=
  { n with events := n.events.pushLatest event }

def isBssid (peer : MacAddress) (n : Negotiation) : Bool := n.link.bssid == some peer

/-- Where the responder's negotiation of a flow stands. -/
def stateOf (peer : MacAddress) (flow : UInt8) (n : Negotiation) : Option AgreementState :=
  (n.stations.get? peer).map (·.state flow)

end Negotiation

end TargetWakeTime
