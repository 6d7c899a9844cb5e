import TargetWakeTime.Negotiation.Basic

/-!
Contract: how a responder answers a request, and what an answer does to the flow.

Owns:
- which answer a request gets: requests and suggestions are accepted if the schedule has room,
  everything else is rejected;
- how an answer leaves: in an action frame if the request came in one, otherwise with the next
  association response;
- the end of a negotiation: the agreement is kept, or the flow is cleared and an idle station
  forgotten.

An accepted agreement holds its place in the schedule from the moment it is scheduled, also while
its answer still waits.
-/

namespace TargetWakeTime.Negotiation

/-- Forgets a station, its places in the schedule and the answers that wait for it. -/
def dropStation (peer : MacAddress) (n : Negotiation) : Negotiation :=
  let flows := (List.range 8).map UInt8.ofNat
  { n with
    stations := n.stations.remove peer
    schedule := flows.foldl (fun schedule flow => schedule.remove ⟨peer, flow⟩) n.schedule
    answers := n.answers.purge (some peer) none }

/-- Forgets a station that has no agreement and negotiates none. -/
def collectIdle (peer : MacAddress) (n : Negotiation) : Negotiation :=
  match n.stations.get? peer with
  | some station => if station.isIdle then n.dropStation peer else n
  | none => n

def removeAgreement (key : AgreementKey) (n : Negotiation) : Negotiation :=
  collectIdle key.address
    { n with
      schedule := n.schedule.remove key
      stations := n.stations.modifySlots key.address (·.setAgreement key.flow none) }

inductive Conclusion where
  | established
  | cleared
deriving DecidableEq, Repr

def setState (peer : MacAddress) (flow : UInt8) (state : AgreementState) (n : Negotiation) :
    Negotiation :=
  { n with stations := n.stations.modifySlots peer (·.setState flow state) }

/-- Ends the negotiation that an event is about, if the event has a slot. -/
def conclude (event : Event) (conclusion : Conclusion) (n : Negotiation) : Negotiation :=
  match n.stations.slot? ⟨event.source, event.flow⟩ with
  | none => n
  | some _ =>
      match conclusion with
      | .cleared =>
          (n.setState event.source event.flow .noAgreement).removeAgreement
            ⟨event.source, event.flow⟩
      | .established =>
          let n := n.setState event.source event.flow .agreement
          match event.agreement? with
          | none => n
          | some agreement =>
              { n with
                stations :=
                  n.stations.modifySlots event.source
                    (·.setAgreement event.flow (some agreement)) }

/-- Lets an answer leave. In an action frame it leaves at once and ends the negotiation as it says;
otherwise it waits, and so does the end. -/
def respond (answer : Event) (conclusion : Option Conclusion) (n : Negotiation) : Negotiation :=
  match n.stations.get? answer.source with
  | none => n
  | some station =>
      if station.actionPending then
        let n :=
          { n with stations := n.stations.modify answer.source ({ · with actionPending := false }) }
        let n :=
          match answer.agreement? with
          | none => n
          | some agreement =>
              n.defer
                (.sendSetup answer.source station.dialogToken agreement.element answer.flow)
        match conclusion with
        | none => n
        | some conclusion => n.conclude answer conclusion
      else { n with answers := n.answers.push answer }

/-- Rejects a request. The answer carries the request's own parameters, and a flow that already has
an agreement keeps it. -/
def reject (peer : MacAddress) (flow : UInt8) (agreement : Agreement) (n : Negotiation) :
    Negotiation :=
  let answer : Event :=
    { source := peer, flow, body := .setup .reject (agreement.withCommand .reject) }
  let inAgreement := n.stateOf peer flow == some .agreement
  n.respond answer (if inAgreement then none else some .cleared)

/-- Accepts a request with the wake time that the schedule gives it, or rejects it if the schedule
has no place. -/
def accept (peer : MacAddress) (flow : UInt8) (command : SetupCommand) (agreement : Agreement)
    (n : Negotiation) : Negotiation :=
  let key : AgreementKey := ⟨peer, flow⟩
  match n.schedule.assign key agreement command n.stations.servicePeriod? with
  | (.error _, agreement, schedule) => { n with schedule }.reject peer flow agreement
  | (.ok (), scheduled, schedule) =>
      let granted := (scheduled.withCommand .accept).updateParameters
      let n :=
        { n with
          schedule
          stations := n.stations.modifySlots peer (·.setAgreement flow (some granted)) }
      n.respond { source := peer, flow, body := .setup .accept granted } (some .established)

/-- What is rejected for want of a place is the agreement that was asked for. -/
theorem accept_eq (peer : MacAddress) (flow : UInt8) (command : SetupCommand)
    (agreement : Agreement) (n : Negotiation) :
    n.accept peer flow command agreement =
      match n.schedule.schedule ⟨peer, flow⟩ agreement command n.stations.servicePeriod? with
      | (.error _, schedule) => { n with schedule }.reject peer flow agreement
      | (.ok scheduled, schedule) =>
          let granted := (scheduled.withCommand .accept).updateParameters
          let n :=
            { n with
              schedule
              stations := n.stations.modifySlots peer (·.setAgreement flow (some granted)) }
          n.respond { source := peer, flow, body := .setup .accept granted } (some .established) := by
  unfold accept Schedule.schedule
  dsimp only
  cases assigned : n.schedule.assign ⟨peer, flow⟩ agreement command n.stations.servicePeriod? with
  | mk result outcome =>
      obtain ⟨left, schedule⟩ := outcome
      cases result with
      | error error =>
          obtain rfl := Schedule.agreement_of_assign_error assigned
          rfl
      | ok => rfl

/-- Takes up a request for a flow that has no agreement. -/
def consider (peer : MacAddress) (flow : UInt8) (command : SetupCommand) (agreement : Agreement)
    (n : Negotiation) : Negotiation :=
  match n.stations.slot? ⟨peer, flow⟩ with
  | none => n
  | some _ =>
      match command with
      | .request => (n.setState peer flow .considerRequest).accept peer flow command agreement
      | .suggest => (n.setState peer flow .considerSuggest).accept peer flow command agreement
      | .demand | .grouping =>
          (n.setState peer flow .considerDemand).reject peer flow agreement
      | .accept | .alternate | .dictate | .reject => n

/-- What a request does, by the state of its flow: a free flow is taken up, one under consideration
stays so, and one in agreement is rejected unless an answer already waits. -/
def answerRequest (peer : MacAddress) (flow : UInt8) (command : SetupCommand)
    (agreement : Agreement) (state : AgreementState) (n : Negotiation) : Negotiation :=
  match state with
  | .noAgreement => n.consider peer flow command agreement
  | .considerRequest | .considerSuggest | .considerDemand | .considerGrouping => n
  | .agreement =>
      if n.answers.contains peer flow then n else n.reject peer flow agreement

end TargetWakeTime.Negotiation
