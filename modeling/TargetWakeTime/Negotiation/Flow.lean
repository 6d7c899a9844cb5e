import TargetWakeTime.Agreement.SetupRequest
import TargetWakeTime.Negotiation.Basic

/-!
Contract: the requester's own flows, from request to installation and back.

Owns:
- sending a request, or keeping it for the next association request;
- what the access point's answers and teardowns do to a flow;
- starting a teardown, and keeping book of what the chip runs.

Commands for the chip are queued in order and carried out once the link is associated.
-/

namespace TargetWakeTime.Negotiation

/-- The state of a flow that has been asked for with this command. -/
def considering : SetupCommand → AgreementState
  | .suggest => .considerSuggest
  | .demand => .considerDemand
  | .grouping => .considerGrouping
  | .request | .accept | .alternate | .dictate | .reject => .considerRequest

def withOwn (f : Requester → Requester) (n : Negotiation) : Negotiation :=
  { n with own := f n.own }

/-- A flow can be configured if it is one of the eight and the chip does not run it. -/
def ensureConfigurable (flow : UInt8) (n : Negotiation) : Except Error Unit :=
  if 7 < flow then .error (.invalidFlow flow)
  else if n.own.isInstalled flow then .error (.agreementActive flow)
  else .ok ()

/-- Asks the access point for an agreement, or keeps the request while there is no access point. -/
def sendRequest (agreement : Agreement) (command : SetupCommand) (n : Negotiation) :
    Except Error Unit × Negotiation :=
  if !n.requester then (.error .requesterDisabled, n)
  else if !command.isRequest then (.error (.invalidParameter (.notRequesterCommand command)), n)
  else
    let agreement := agreement.withCommand command
    let flow := agreement.flow
    let n :=
      match n.link.accessPoint? with
      | some bssid =>
          let token := n.own.dialogToken + 1
          (n.withOwn ({ · with dialogToken := token })).defer
            (.sendSetup bssid token agreement.element flow)
      | none => n.withOwn ({ · with stored := some (.setup .zero agreement) })
    (.ok (), n.withOwn (·.setState flow (considering command)))

/-- The element of the stored request, for an association request. -/
def associationRequestElement (n : Negotiation) : Option (List UInt8) × Negotiation :=
  if n.requester then
    match n.own.stored with
    | some { flow, body := .setup command agreement, .. } =>
        (some agreement.element, n.withOwn (·.setState flow (considering command)))
    | some { body := .teardown, .. } | none => (none, n)
  else (none, n)

/-- Commands to the chip have to wait for the association. -/
def deferCommands (n : Negotiation) : Negotiation :=
  if n.link.associated then n.defer .applyCommands else n

/-- The access point answers a request of this interface. An answer counts only while the flow is
under consideration. -/
def handleAnswer (event : Event) (command : SetupCommand) (n : Negotiation) : Negotiation :=
  let flow := event.flow
  if (n.own.state flow).isConsidering then
    match command with
    | .accept =>
        let n := n.withOwn fun own =>
          ((own.setState flow .agreement).setAgreement flow event.agreement?).pushCommand event
        n.deferCommands
    | .reject | .alternate | .dictate => n.withOwn (·.setState flow .noAgreement)
    | .request | .suggest | .demand | .grouping => n
  else n

/-- The access point tears a flow down. -/
def handleOwnTeardown (event : Event) (n : Negotiation) : Negotiation :=
  let flow := event.flow
  if n.own.state flow = .noAgreement ∧ !n.own.isInstalled flow then n
  else
    let n := n.withOwn fun own =>
      ((own.setState flow .noAgreement).setAgreement flow none).pushCommand event
    n.deferCommands

/-- Starts to tear down a flow that the chip runs. `true` means that the caller has to uninstall it
now; `false` that a teardown frame goes first. -/
def beginTeardown (flow : UInt8) (n : Negotiation) : Except Error Bool × Negotiation :=
  if 7 < flow then (.error (.invalidFlow flow), n)
  else if !n.own.isInstalled flow then (.error (.agreementNotActive flow), n)
  else
    let n := n.withOwn fun own => (own.setState flow .noAgreement).setAgreement flow none
    match n.link.accessPoint? with
    | some bssid => (.ok false, n.defer (.sendTeardown bssid flow))
    | none => (.ok true, n)

/-- The teardown frame has left: the uninstallation follows. -/
def teardownSent (destination : MacAddress) (flow : UInt8) (n : Negotiation) : Negotiation :=
  (n.withOwn (·.pushCommand (.teardown destination flow))).defer .applyCommands

/-- The link may carry data: what was accepted during association is carried out. -/
def authorized (n : Negotiation) : Negotiation :=
  if n.own.commands.isEmpty then n else n.defer .applyCommands

def takeCommands (n : Negotiation) : List Event × Negotiation :=
  (n.own.commands.toList, n.withOwn ({ · with commands := {} }))

/-- The chip runs a flow now. -/
def commitInstall (flow : UInt8) (n : Negotiation) : Negotiation :=
  n.withOwn (·.setInstalled flow true)

/-- The chip no longer runs a flow. -/
def commitUninstall (flow : UInt8) (n : Negotiation) : Negotiation :=
  n.withOwn (·.setInstalled flow false)

/-- The chip runs a flow that nobody was asked for; from now on the interface is a requester. -/
def forceInstalled (agreement : Agreement) (n : Negotiation) : Negotiation :=
  let flow := agreement.flow
  ({ n with requester := true }.withOwn fun own =>
    (own.setState flow .agreement).setAgreement flow (some agreement)).commitInstall flow

end TargetWakeTime.Negotiation
