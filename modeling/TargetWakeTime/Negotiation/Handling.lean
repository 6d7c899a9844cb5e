import TargetWakeTime.Agreement.Element
import TargetWakeTime.Negotiation.Answer
import TargetWakeTime.Negotiation.Flow

/-!
Contract: what comes in, and how it is handled.

Owns:
- taking in elements and action frames as events;
- handling events, oldest first, each exactly once, except those of new stations that find the table
  full: they go behind everything else and are tried again later;
- taking answers out for association responses;
- forgetting a station, or everything.
-/

namespace TargetWakeTime.Negotiation

/-- Takes in the element of a frame from `source`. -/
def receiveElement (source : MacAddress) (element : List UInt8) (n : Negotiation) :
    Except Error Unit × Negotiation :=
  match Agreement.parse element with
  | .error error => (.error error, n)
  | .ok agreement => (.ok (), n.queueEvent (.setup source agreement))

/-- Takes in a setup action frame. A responder notes that the answer has to be an action frame with
this token, unless the frame comes from its own access point. -/
def receiveSetup (source : MacAddress) (token : UInt8) (element : List UInt8) (n : Negotiation) :
    Except Error Unit × Negotiation :=
  match n.receiveElement source element with
  | (.error error, n) => (.error error, n)
  | (.ok (), n) =>
      if n.responder ∧ !n.isBssid source then
        match n.stations.ensure source with
        | .error error => (.error error, n.defer .retryEvents)
        | .ok stations =>
            let stations :=
              stations.modify source ({ · with dialogToken := token, actionPending := true })
            (.ok (), { n with stations }.defer (.handleEvents none))
      else (.ok (), n.defer (.handleEvents none))

/-- Takes in a teardown action frame, from the access point or from a known station only. -/
def receiveTeardown (source : MacAddress) (flow : UInt8) (n : Negotiation) :
    Except Error Unit × Negotiation :=
  let fromAccessPoint := n.requester && n.isBssid source
  if !fromAccessPoint && !n.stations.contains source then (.error (.unknownStation source), n)
  else (.ok (), (n.queueEvent (.teardown source flow)).defer (.handleEvents none))

/-- A teardown ends the own flow or the station's flow, if there is anything to end. -/
def handleTeardown (event : Event) (n : Negotiation) : Negotiation :=
  if n.requester && n.isBssid event.source then n.handleOwnTeardown event
  else if n.responder then
    match n.stateOf event.source event.flow with
    | none | some .noAgreement => n
    | some _ => n.conclude event .cleared
  else n

/-- Handles one event. The second component tells whether the event is to be tried again because the
station table is full. -/
def handleEvent (event : Event) (n : Negotiation) : Negotiation × Bool :=
  match event.body with
  | .teardown => (n.handleTeardown event, false)
  | .setup command agreement =>
      if command.isRequest then
        if n.responder then
          match n.stations.ensure event.source with
          | .error _ => (n, true)
          | .ok stations =>
              let n := { n with stations }
              let state := (n.stateOf event.source event.flow).getD .noAgreement
              (n.answerRequest event.source event.flow command agreement state, false)
        else (n, false)
      else if n.requester then (n.handleAnswer event command, false)
      else (n, false)

/-- Handles events in order; the second component holds those to be tried again, in order. -/
def handleAll : List Event → Negotiation → Negotiation × List Event
  | [], n => (n, [])
  | event :: rest, n =>
      let (n, again) := n.handleEvent event
      let (n, later) := handleAll rest n
      (n, if again then event :: later else later)

/-- Handles the queued events, all of them or those from one source. -/
def handleEvents (source : Option MacAddress) (n : Negotiation) : Negotiation :=
  let due := n.events.toList.filter (·.passes source none)
  let kept := n.events.toList.filter fun event => !event.passes source none
  let (n, again) := handleAll due { n with events := ⟨kept⟩ }
  let n := { n with events := ⟨n.events.toList ++ again⟩ }
  if again.isEmpty then n else n.defer .retryEvents

/-- Carries out what a queued answer says, now that it leaves. -/
def completeAnswer (answer : Event) (command : SetupCommand) (n : Negotiation) :
    Except Error Unit × Negotiation :=
  match n.stateOf answer.source answer.flow with
  | none => (.error (.unknownStation answer.source), n)
  | some state =>
      if state.isConsidering then
        match command with
        | .accept => (.ok (), n.conclude answer .established)
        | .reject => (.ok (), n.conclude answer .cleared)
        | _ => (.ok (), n)
      else if state = .agreement ∧ command = .reject then (.ok (), n)
      else (.error (.unexpectedAnswer command state), n)

/-- Takes out the oldest answer that waits for a station, and completes its negotiation. -/
def takeAnswer (peer : MacAddress) (n : Negotiation) : Except Error (Option Event) × Negotiation :=
  match n.answers.pop? (some peer) none with
  | none => (.ok none, n)
  | some (answer, answers) =>
      let n := { n with answers }
      match answer.command? with
      | none => (.ok (some answer), n)
      | some command =>
          if command.isRequest then (.ok (some answer), n)
          else
            match n.completeAnswer answer command with
            | (.error error, n) => (.error error, n)
            | (.ok (), n) => (.ok (some answer), n)

/-- The element for the association response to a station, if an answer waits for it. -/
def takeResponseElement (peer : MacAddress) (n : Negotiation) :
    Option (List UInt8) × Negotiation :=
  match n.takeAnswer peer with
  | (.ok (some answer), n) => (answer.agreement?.map Agreement.element, n)
  | (.ok none, n) | (.error _, n) => (none, n)

/-- A peer leaves: a station and all it holds is forgotten, and so are the own flows if the peer is
the access point. -/
def removeStation (peer : MacAddress) (n : Negotiation) : Except Error Unit × Negotiation :=
  let n := if n.requester && n.isBssid peer then { n with own := n.own.reset (some peer) } else n
  if n.stations.contains peer then (.ok (), n.dropStation peer)
  else (.error (.unknownStation peer), n)

/-- Drops queued events, all of them or those from one source, and tells how many. -/
def purgeEvents (source : Option MacAddress) (n : Negotiation) : Nat × Negotiation :=
  (n.events.count source none, { n with events := n.events.purge source none })

/-- Forgets stations, agreements, own flows, everything queued and all deferred work. -/
def clear (n : Negotiation) : Negotiation :=
  { n with
    stations := n.stations.clear
    schedule := .empty
    answers := {}
    own := n.own.reset none
    events := {}
    tasks := [] }

end TargetWakeTime.Negotiation
