import TargetWakeTime.Proofs.Interface.Actions
import TargetWakeTime.Proofs.Negotiation.OwnFlows
import TargetWakeTime.Proofs.Runs

/-!
Contract: what is on the books for an interface's own flows.

Owns:
- booked flows, for which an agreement is stored exactly if they are in agreement;
- that every operation keeps the books, except asking once more for a flow in agreement;
- that the books of an interface are in order all along a run exactly if no action asks for a flow in
  agreement.

The crux is that a flow which is asked for keeps what is stored for it, and so does one whose request
is refused: only teardowns clear it.
-/

namespace TargetWakeTime

/-- An agreement is stored exactly if the flow is in agreement. -/
def Slot.Booked (s : Slot) : Prop := s.agreement.isSome = true ↔ s.state = .agreement

namespace Requester

/-- For every flow, an agreement is stored exactly if the flow is in agreement. -/
def Booked (r : Requester) : Prop :=
  ∀ flow, (r.agreement? flow).isSome = true ↔ r.state flow = .agreement

variable {r s : Requester} {flow : UInt8}

theorem booked_iff :
    r.Booked ↔ ∀ flow slot, r.slots.get? flow = some slot → slot.Booked := by
  constructor
  · intro booked flow slot found
    have here := booked flow
    rw [agreement?, state, Slots.agreement?, Slots.state, found] at here
    exact here
  · intro booked flow
    rw [agreement?, state, Slots.agreement?, Slots.state]
    cases found : r.slots.get? flow with
    | some slot => exact booked flow slot found
    | none => simp

theorem state_of_slot? {slot : Slot} (found : r.slots.get? flow = some slot) :
    r.state flow = slot.state := by
  rw [state, Slots.state, found]
  rfl

theorem booked_of_slots (same : s.slots = r.slots) (booked : r.Booked) : s.Booked := by
  rw [booked_iff, same]
  exact booked_iff.mp booked

theorem booked_of_empty (empty : r.slots = .empty) : r.Booked := by
  rw [booked_iff, empty]
  intro flow slot found
  simp only [Slots.get?, Slots.empty, Vector.getElem?_replicate] at found
  split at found
  · obtain rfl := Option.some.inj found
    simp [Slot.Booked]
  · cases found

/-- Only the slot that is rewritten has to be looked at. -/
theorem booked_of_slot? {f : Slot → Slot} (booked : r.Booked)
    (own : ∀ other, s.slots.get? other =
      if other = flow then (r.slots.get? flow).map f else r.slots.get? other)
    (rewritten : ∀ slot, r.slots.get? flow = some slot → slot.Booked → (f slot).Booked) :
    s.Booked := by
  rw [booked_iff]
  intro other slot found
  rw [own] at found
  split at found
  · obtain ⟨before, known, rfl⟩ := Option.map_eq_some_iff.mp found
    exact rewritten before known (booked_iff.mp booked flow before known)
  · exact booked_iff.mp booked other slot found

theorem booked_setState {state : AgreementState} (booked : r.Booked)
    (fresh : r.state flow ≠ .agreement) (next : state ≠ .agreement) :
    (r.setState flow state).Booked := by
  refine booked_of_slot? booked (fun other => slot?_setState) fun slot found here => ?_
  have stale : slot.agreement.isSome ≠ true := fun stored =>
    fresh ((state_of_slot? found).trans (here.mp stored))
  exact iff_of_false stale next

/-- State and agreement are written together. -/
theorem booked_setBoth (flow : UInt8) {state : AgreementState} {agreement : Option Agreement}
    (booked : r.Booked) (fit : agreement.isSome = true ↔ state = .agreement) :
    ((r.setState flow state).setAgreement flow agreement).Booked := by
  have own (other : UInt8) : ((r.setState flow state).setAgreement flow agreement).slots.get? other =
      if other = flow then (r.slots.get? flow).map fun _ => { state, agreement }
      else r.slots.get? other := by
    rw [slot?_setAgreement, slot?_setState, slot?_setState, if_pos rfl, Option.map_map]
    split <;> rfl
  exact booked_of_slot? booked own fun _ _ _ => fit

end Requester

namespace Negotiation

variable {n : Negotiation}

theorem booked_of_ownHandled {event : Event} {before after : Negotiation}
    (handled : OwnHandled event before after) (booked : before.own.Booked) : after.own.Booked := by
  cases handled with
  | kept same =>
      rw [same]
      exact booked
  | accepted _ _ own =>
      rw [own]
      exact Requester.booked_of_slots rfl (Requester.booked_setBoth _ booked (by simp))
  | refused considering own =>
      rw [own]
      refine Requester.booked_setState booked (fun agreed => ?_) (by simp)
      rw [agreed] at considering
      cases considering
  | torn _ own =>
      rw [own]
      exact Requester.booked_of_slots rfl (Requester.booked_setBoth _ booked (by simp))

/-- An operation asks for no flow that is in agreement. -/
def AsksFresh (n : Negotiation) (operation : Operation) : Prop :=
  ∀ flow, operation.asks? n = some flow → n.own.state flow ≠ .agreement

/-- Every operation keeps the books, unless it asks for a flow in agreement. -/
theorem booked_apply {operation : Operation} (booked : n.own.Booked)
    (fresh : AsksFresh n operation) : (operation.apply n).own.Booked := by
  have result := ownApplied n operation
  generalize operation.apply n = m at result ⊢
  cases result with
  | kept same =>
      rw [same]
      exact booked
  | @asked _ _ flow command asks slots =>
      refine Requester.booked_of_slots slots (Requester.booked_setState booked (fresh flow asks) ?_)
      cases command <;> simp [considering]
  | handled source =>
      exact own_handleEvents Requester.Booked (fun _ _ _ _ => booked_of_ownHandled) booked
  | ended own =>
      rw [own]
      exact Requester.booked_setBoth _ booked (by simp)
  | queued => exact Requester.booked_of_slots rfl booked
  | taken => exact Requester.booked_of_slots rfl booked
  | forced agreement =>
      have agreed : ((n.own.setState agreement.flow .agreement).setAgreement agreement.flow
          (some agreement)).Booked := Requester.booked_setBoth _ booked (by simp)
      exact Requester.booked_of_slots rfl agreed
  | installed => exact Requester.booked_of_slots rfl booked
  | uninstalled => exact Requester.booked_of_slots rfl booked
  | reset _ own =>
      rw [own]
      exact Requester.booked_of_empty rfl
  | cleared => exact Requester.booked_of_empty rfl

/-- A flow that is asked for while it is in agreement leaves the books wrong. -/
theorem not_booked_of_asks {operation : Operation} {flow : UInt8} (booked : n.own.Booked)
    (asks : operation.asks? n = some flow) (agreed : n.own.state flow = .agreement) :
    ¬ (operation.apply n).own.Booked := by
  obtain ⟨command, slots⟩ := slots_of_asks asks
  have stored : (n.own.agreement? flow).isSome = true := (booked flow).mpr agreed
  obtain ⟨slot, found⟩ : ∃ slot, n.own.slots.get? flow = some slot := by
    cases found : n.own.slots.get? flow with
    | some slot => exact ⟨slot, rfl⟩
    | none => simp [Requester.agreement?, Slots.agreement?, found] at stored
  have rewritten : (operation.apply n).own.slots.get? flow =
      some { slot with state := considering command } := by
    rw [slots, Slots.setState, Slots.get?_modify, if_pos rfl, found]
    rfl
  have kept : slot.agreement.isSome = true := by
    simpa [Requester.agreement?, Slots.agreement?, found] using stored
  intro still
  have here := (Requester.booked_iff.mp still flow _ rewritten).mp kept
  cases command <;> cases here

end Negotiation

namespace Interface

/-- The flow that an action asks the access point for, now or at the next association. -/
def Action.asks? (i : Interface) : Action → Option UInt8
  | complete (.negotiate agreement command) (.ok ()) =>
      (Negotiation.Operation.sendRequest agreement command).asks? i.negotiation
  | associationRequestElement => Negotiation.Operation.associationRequestElement.asks? i.negotiation
  | _ => none

/-- An action asks once more for a flow that is in agreement. -/
def AsksAgain (i : Interface) (action : Action) : Prop :=
  ∃ flow, action.asks? i = some flow ∧ i.negotiation.own.state flow = .agreement

/-- For every own flow, an agreement is stored exactly if the flow is in agreement. -/
def Booked (i : Interface) : Prop := i.negotiation.own.Booked

variable {i : Interface} {action : Action}

/-- Whether an operation can ask for a flow at all. -/
def mayAsk : Negotiation.Operation → Bool
  | .sendRequest .. | .associationRequestElement => true
  | _ => false

theorem asks?_eq_none {operation : Negotiation.Operation} (silent : mayAsk operation = false)
    (n : Negotiation) : operation.asks? n = none := by
  cases operation
  case sendRequest | associationRequestElement => cases silent
  all_goals rfl

theorem not_mayAsk_taskOperations (task : Task) :
    ∀ operation ∈ Action.taskOperations i task, mayAsk operation = false := by
  cases task with
  | sendTeardown =>
      rw [Action.taskOperations]
      split <;> simp [mayAsk]
  | sendSetup | handleEvents | applyCommands | retryEvents => simp [Action.taskOperations, mayAsk]

/-- Only the two actions that ask come down to operations that do. -/
theorem not_mayAsk_operations (request : ∀ agreement command,
      action ≠ .complete (.negotiate agreement command) (.ok ()))
    (association : action ≠ .associationRequestElement) :
    ∀ operation ∈ action.operations i, mayAsk operation = false := by
  cases action with
  | associationRequest source element | associationResponse source element =>
      rw [Action.operations, Action.received]
      split <;> simp [mayAsk]
  | associationRequestElement => exact absurd rfl association
  | complete call answer =>
      cases answer with
      | error error => cases call <;> simp [Action.operations]
      | ok =>
          cases call with
          | negotiate agreement command => exact absurd rfl (request agreement command)
          | install | uninstall => simp [Action.operations, mayAsk]
  | work =>
      rw [Action.operations]
      split
      · exact not_mayAsk_taskOperations _
      · simp
  | frameSent =>
      rw [Action.operations]
      split <;> simp [mayAsk]
  | commandDone succeeded =>
      rw [Action.operations]
      split
      · split
        · split <;> simp [mayAsk]
        · simp
      · simp
  | receiveSetup | receiveTeardown | authorized | removeStation | purgeEvents | relink | teardown
      | wake => simp [Action.operations, mayAsk]

theorem asksFresh_of_silent {operation : Negotiation.Operation} (silent : mayAsk operation = false)
    (n : Negotiation) : n.AsksFresh operation := by
  intro flow asks
  rw [asks?_eq_none silent] at asks
  cases asks

/-- Whatever asks in the course of an action asks for a flow that is not in agreement. -/
theorem asksFresh_of_not_asksAgain (notAgain : ¬ i.AsksAgain action) :
    ∀ step ∈ Negotiation.steps i.negotiation (action.operations i),
      step.1.AsksFresh step.2 := by
  -- An action that asks is followed by nothing but handing over the tasks.
  have asking {operation : Negotiation.Operation}
      (asks : action.asks? i = operation.asks? i.negotiation) :
      ∀ step ∈ Negotiation.steps i.negotiation [operation, .takeTasks], step.1.AsksFresh step.2 := by
    rw [Negotiation.steps, Runs.steps, Runs.steps, Runs.steps, List.forall_mem_cons,
      List.forall_mem_singleton]
    refine ⟨fun flow asked agreed => notAgain ⟨flow, asks.trans asked, agreed⟩, ?_⟩
    exact asksFresh_of_silent rfl _
  by_cases association : action = .associationRequestElement
  · subst association
    exact asking rfl
  · by_cases request : ∃ agreement command, action = .complete (.negotiate agreement command) (.ok ())
    · obtain ⟨agreement, command, rfl⟩ := request
      exact asking rfl
    · intro step member
      refine asksFresh_of_silent (not_mayAsk_operations (fun agreement command same => ?_)
        association step.2 (Runs.mem_of_mem_steps member).2) step.1
      exact request ⟨agreement, command, same⟩

theorem booked_action (booked : i.Booked) (notAgain : ¬ i.AsksAgain action) :
    (action.apply i).Booked := by
  rw [Booked, negotiation_apply]
  exact Runs.invariant_of_steps (fun n => n.own.Booked) (fun _ _ => Negotiation.booked_apply)
    booked (asksFresh_of_not_asksAgain notAgain) _ (Negotiation.run_mem_reached _ _)

theorem not_booked_of_asksAgain (booked : i.Booked) (again : i.AsksAgain action) :
    ¬ (action.apply i).Booked := by
  obtain ⟨flow, asks, agreed⟩ := again
  rw [Booked, negotiation_apply]
  cases action
  case associationRequestElement => exact Negotiation.not_booked_of_asks booked asks agreed
  case complete call answer =>
    cases answer with
    | error error => cases call <;> cases asks
    | ok =>
        cases call with
        | negotiate => exact Negotiation.not_booked_of_asks booked asks agreed
        | install | uninstall => cases asks
  all_goals cases asks

/-- The books of an interface are in order all along a run exactly if no action asks for a flow that
is in agreement. -/
theorem booked_iff_neverAsksAgain (vif : UInt16) (address : MacAddress)
    (settings : Negotiation.Settings) (actions : List Action) :
    (∀ i ∈ Runs.reached Action.apply (new vif address settings) actions,
        i.Booked) ↔
      ∀ step ∈ Runs.steps Action.apply (new vif address settings) actions,
        ¬ step.1.AsksAgain step.2 := by
  have start : (new vif address settings).Booked := Requester.booked_of_empty rfl
  exact Runs.reached_iff_steps Booked (fun _ => id)
    (fun i action booked (notAgain : ¬ i.AsksAgain action) => booked_action booked notAgain)
    (fun _ _ booked still again => not_booked_of_asksAgain booked again still) start

/-- A station's request is granted while it associates. Before the agreement is installed the station
asks again for the same flow, and is refused. -/
def askedTwice : List Action :=
  let accessPoint : MacAddress := ⟨2, 0, 0, 0, 0, 0⟩
  let agreement := Agreement.ofParameters .zero
    { Parameters.zero with
      requestType := { RequestType.zero with implicit := true }
      minimumDuration := 1
      mantissa := 1024 }
  [.complete (.negotiate agreement .request) (.ok ()), .associationRequestElement,
    .associationResponse accessPoint (agreement.withCommand .accept).element,
    .complete (.negotiate agreement .request) (.ok ()), .associationRequestElement,
    .associationResponse accessPoint (agreement.withCommand .reject).element]

/-- The flow is back without an agreement, and the old one is still stored for it. -/
theorem not_booked_askedTwice :
    ¬ ∀ i ∈ Runs.reached Action.apply
        (new 1 ⟨2, 0, 0, 0, 0, 9⟩ Negotiation.Settings.station) askedTwice, i.Booked := by
  intro holds
  have last := holds _ (Runs.foldl_mem_reached _ _) 0
  revert last
  decide +kernel

end Interface

end TargetWakeTime
