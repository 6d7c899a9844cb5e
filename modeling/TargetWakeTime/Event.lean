import TargetWakeTime.Agreement.Basic
import TargetWakeTime.MacAddress

/-!
Contract: what the negotiation is told, one event a frame.

An event names the peer it comes from and the flow it is about. The flow is an octet of its own: the
constructors here take it from the element or keep three bits of it, but an event may carry any.
-/

namespace TargetWakeTime

namespace Event

inductive Body where
  | setup (command : SetupCommand) (agreement : Agreement)
  | teardown
deriving DecidableEq, Repr

end Event

structure Event where
  source : MacAddress
  flow : UInt8
  body : Event.Body
deriving DecidableEq, Repr

namespace Event

/-- The event of an element that came in: flow and command are the element's own. -/
def setup (source : MacAddress) (agreement : Agreement) : Event where
  source := source
  flow := agreement.flow
  body := .setup agreement.command agreement

/-- The end of a flow; only the low three bits of the octet count. -/
def teardown (source : MacAddress) (flow : UInt8) : Event where
  source := source
  flow := UInt8.ofNat (flow.toNat % 8)
  body := .teardown

def command? (e : Event) : Option SetupCommand :=
  match e.body with
  | .setup command _ => some command
  | .teardown => none

def agreement? (e : Event) : Option Agreement :=
  match e.body with
  | .setup _ agreement => some agreement
  | .teardown => none

/-- Whether an event passes a filter; a filter that is absent lets everything pass. -/
def passes (source : Option MacAddress) (flow : Option UInt8) (e : Event) : Bool :=
  source.all (· == e.source) && flow.all (· == e.flow)

@[simp] theorem passes_none (e : Event) : e.passes none none = true := rfl

/-- The lines that describe a setup event field by field; a teardown has nothing to describe. -/
def describe (e : Event) : List String :=
  match e.body with
  | .teardown => []
  | .setup command agreement =>
      let control := agreement.control
      let requestType := agreement.parameters.requestType
      let side := if requestType.request then "Requester" else "Responder"
      let mode := if control.responderAwake then "Awake" else "Doze"
      let broadcast := if control.broadcast then " broadcast," else ""
      let infoFrame := if control.infoFrameDisabled then " info frame disabled," else ""
      let unit := if control.durationInTimeUnits then "TU" else "256us"
      let trigger := if requestType.trigger then "trigger, " else ""
      let implicit := if requestType.implicit then "implicit" else "explicit"
      let announced := if requestType.flowType then "unannounced" else "announced"
      let guarded := if requestType.protection then "protected" else "unprotected"
      [s!"TWT Command: {command.name}", s!"TWT from: {e.source.text}", s!"TWT Flow ID: {e.flow}",
        s!"TWT {side}"] ++
      (if control.ndpPaging then ["TWT NDP paging indication"] else []) ++
      [s!"TWT PM: {mode}", s!"TWT{broadcast}{infoFrame} wake duration unit {unit}",
        s!"TWT {trigger}{implicit}, {announced}, {guarded}",
        s!"TWT Wake time: {agreement.wakeTime}us",
        s!"TWT Wake interval: {agreement.wakeInterval}us",
        s!"TWT Wake duration: {agreement.wakeDuration}us"]

end Event

end TargetWakeTime
