import TargetWakeTime.Proofs.Interface.Actions
import TargetWakeTime.Proofs.Negotiation.OwnFlows

/-!
Contract: what an action leaves of the events to be carried out, and of what is installed.

Owns:
- the events that a worker has to carry out on the chip, and the one it waits for;
- that frames have brought all of these events;
- which actions can change what is installed: only an answer of the chip makes a flow installed, and
  only leaving the access point forgets that one is.
-/

namespace TargetWakeTime

/-! ### Workers -/

namespace Worker.Stage

/-- The events that a worker has still to carry out, the one in progress first. -/
def events : Stage → List Event
  | applying pending _ => pending
  | commanding event pending _ => event :: pending
  | idle | running _ | transmitting .. | stopped => []

/-- The event whose command a worker waits for. -/
def commanded? : Stage → Option Event
  | commanding event _ _ => some event
  | idle | running _ | applying .. | transmitting .. | stopped => none

end Worker.Stage

namespace Interface

variable {i : Interface} {action : Action} {flow : UInt8}

@[simp] theorem stage_push (given : List Work) (w : Worker) : (w.push given).stage = w.stage := by
  unfold Worker.push
  split <;> rfl

@[simp] theorem stage_operate {α : Type} (operation : Negotiation → α × Negotiation)
    (i : Interface) : (i.operate operation).2.worker.stage = i.worker.stage :=
  stage_push _ _

/-! ### Actions -/

open Negotiation (Operation)

theorem vif_afterFrame (task : Task) (queue : List Task) (i : Interface) :
    (i.afterFrame task queue).vif = i.vif := by
  cases task <;> rfl

theorem vif_perform (task : Task) (queue : List Task) (i : Interface) :
    (i.perform task queue).1.vif = i.vif := by
  cases task with
  | sendSetup | sendTeardown =>
      simp only [perform, sendFrame]
      split
      · rfl
      · exact vif_afterFrame _ _ i
  | applyCommands | handleEvents | retryEvents => rfl

theorem vif_work {after : Interface} {request : Option Request}
    (found : i.work = some (after, request)) : after.vif = i.vif := by
  cases worked found with
  | performed => exact vif_perform _ _ i
  | taken | flushed | stopped | done | begun | applied => rfl

/-- No action changes the number that the chip knows the interface by. -/
theorem vif_apply (action : Action) (i : Interface) : (action.apply i).vif = i.vif := by
  cases action with
  | teardown flow =>
      rw [Action.apply, teardown_snd]
      rfl
  | complete call answer =>
      cases answer with
      | error error => rfl
      | ok => cases call <;> rfl
  | work =>
      rw [Action.apply]
      cases found : i.work with
      | none => rfl
      | some result => exact vif_work found
  | frameSent =>
      simp only [Action.apply, frameSent]
      split
      · exact vif_afterFrame ..
      · rfl
  | commandDone succeeded =>
      simp only [Action.apply, commandDone]
      split
      · cases succeeded <;> rfl
      · rfl
  | receiveSetup | receiveTeardown | associationRequest | associationResponse
      | associationRequestElement | authorized | removeStation | purgeEvents | relink | wake => rfl

/-- Whether an action can bring the answer that the chip now runs a flow, or no longer does. -/
def Action.notes : Action → Bool
  | complete .. | commandDone _ => true
  | _ => false

/-- Whether an action can make the interface forget its own flows. -/
def Action.departs : Action → Bool
  | removeStation _ => true
  | _ => false

/-- What an action comes down to brings in events from frames only, notes nothing about the chip
unless the chip has answered, and forgets nothing unless a peer departs. -/
theorem operations_framed (action : Action) (i : Interface) :
    ∀ operation ∈ action.operations i,
      operation.fromFrames = true ∧ (action.notes = false → operation.notes = false) ∧
        (action.departs = false → ∀ n : Negotiation, operation.forgets n = false) := by
  cases action with
  | associationRequest source element | associationResponse source element =>
      rw [Action.operations, Action.received]
      split <;> simp [Operation.fromFrames, Operation.notes, Operation.forgets]
  | complete call answer =>
      cases answer with
      | error error => cases call <;> simp [Action.operations]
      | ok =>
          cases call <;>
            simp [Action.operations, Action.notes, Operation.fromFrames, Operation.notes,
              Operation.forgets]
  | work =>
      rw [Action.operations]
      split
      case h_1 task queue _ =>
        cases task with
        | sendTeardown =>
            rw [Action.taskOperations]
            split <;> simp [Operation.fromFrames, Operation.notes, Operation.forgets]
        | sendSetup | handleEvents | applyCommands | retryEvents =>
            simp [Action.taskOperations, Operation.fromFrames, Operation.notes, Operation.forgets]
      case h_2 => simp
  | frameSent =>
      rw [Action.operations]
      split <;> simp [Operation.fromFrames, Operation.notes, Operation.forgets]
  | commandDone succeeded =>
      rw [Action.operations]
      split
      · split
        · split <;> simp [Action.notes, Operation.fromFrames, Operation.forgets]
        · simp
      · simp
  | receiveSetup | receiveTeardown | associationRequestElement | authorized | removeStation
      | purgeEvents | relink | teardown | wake =>
      simp [Action.operations, Action.departs, Operation.fromFrames, Operation.notes,
        Operation.forgets]

theorem framed_apply (framed : i.negotiation.Framed) (action : Action) :
    (action.apply i).negotiation.Framed := by
  rw [negotiation_apply]
  exact Runs.invariant_of_steps Negotiation.Framed (fun _ _ => Negotiation.framed_apply) framed
    (fun step member =>
      (operations_framed action i step.2 (Runs.mem_of_mem_steps member).2).1)
    _ (Negotiation.run_mem_reached _ _)

/-- Only an answer of the chip makes a flow installed. -/
theorem isInstalled_of_apply (silent : action.notes = false)
    (installed : (action.apply i).negotiation.own.isInstalled flow = true) :
    i.negotiation.own.isInstalled flow = true := by
  rw [negotiation_apply] at installed
  exact Runs.invariant_of_steps
    (fun n => n.own.isInstalled flow = true → i.negotiation.own.isInstalled flow = true)
    (fun _ _ earlier still after => earlier (Negotiation.isInstalled_of_apply still after)) id
    (fun step member =>
      (operations_framed action i step.2 (Runs.mem_of_mem_steps member).2).2.1 silent)
    _ (Negotiation.run_mem_reached _ _) installed

/-- Whether an action makes the interface leave its access point. -/
def Leaves (i : Interface) (action : Action) : Prop :=
  ∃ peer, action = .removeStation peer ∧ i.negotiation.requester = true ∧
    i.negotiation.isBssid peer = true

/-- Unless the interface leaves its access point, only an answer of the chip changes what is
installed. -/
theorem installed_of_apply (silent : action.notes = false) (stays : ¬ i.Leaves action) :
    (action.apply i).negotiation.own.installed = i.negotiation.own.installed := by
  rw [negotiation_apply]
  cases departs : action.departs with
  | false =>
      exact Runs.invariant_of_steps
        (fun n => n.own.installed = i.negotiation.own.installed)
        (fun n operation same (met : operation.notes = false ∧ operation.forgets n = false) =>
          (Negotiation.installed_apply met.1 met.2).trans same) rfl
        (fun step member =>
          have known := operations_framed action i step.2 (Runs.mem_of_mem_steps member).2
          ⟨known.2.1 silent, known.2.2 departs step.1⟩)
        _ (Negotiation.run_mem_reached _ _)
  | true =>
      cases action with
      | removeStation peer =>
          have keeps : (Operation.removeStation peer).forgets i.negotiation = false :=
            Bool.eq_false_iff.mpr fun both =>
              stays ⟨peer, rfl, (Bool.and_eq_true_iff.mp both).1, (Bool.and_eq_true_iff.mp both).2⟩
          exact Negotiation.installed_apply (n := i.negotiation) rfl keeps
      | receiveSetup | receiveTeardown | associationRequest | associationResponse
          | associationRequestElement | authorized | purgeEvents | relink | teardown | complete
          | wake | work | frameSent | commandDone => cases departs

/-- An action that neither asks the chip nor answers for it leaves what is to be carried out. -/
theorem stage_of_independent (independent : action.independent = true) :
    (action.apply i).worker.stage.events = i.worker.stage.events ∧
      (action.apply i).worker.stage.commanded? = i.worker.stage.commanded? := by
  cases action with
  | frameSent =>
      simp only [Action.apply, frameSent]
      split
      case h_1 task queue stage =>
        rw [stage]
        cases task <;> exact ⟨rfl, rfl⟩
      case h_2 => exact ⟨rfl, rfl⟩
  | wake given =>
      rw [Action.apply]
      simp
  | relink => exact ⟨rfl, rfl⟩
  | teardown | complete | work | commandDone => cases independent
  | receiveSetup | receiveTeardown | associationRequest | associationResponse
      | associationRequestElement | removeStation | purgeEvents | authorized =>
      constructor
      · exact congrArg Worker.Stage.events (stage_operate ..)
      · exact congrArg Worker.Stage.commanded? (stage_operate ..)

theorem events_afterFrame (task : Task) (queue : List Task) (i : Interface) :
    (i.afterFrame task queue).worker.stage.events = [] := by
  cases task <;> rfl

/-- What the worker has to carry out was queued for it. -/
theorem mem_events_perform {event : Event} {task : Task} {queue : List Task}
    (member : event ∈ (i.perform task queue).1.worker.stage.events) :
    event ∈ i.negotiation.own.commands.toList := by
  cases task with
  | sendSetup | sendTeardown =>
      simp only [perform, sendFrame] at member
      split at member
      · cases member
      · rw [events_afterFrame] at member
        cases member
  | applyCommands => exact member
  | handleEvents | retryEvents => cases member

/-- A step of the worker takes up what was queued to be carried out, or goes on with it. -/
theorem mem_events_work {after : Interface} {request : Option Request} {event : Event}
    (found : i.work = some (after, request)) (member : event ∈ after.worker.stage.events) :
    event ∈ i.negotiation.own.commands.toList ∨ event ∈ i.worker.stage.events := by
  cases worked found with
  | performed => exact .inl (mem_events_perform member)
  | begun stage =>
      rw [stage]
      exact .inr member
  | taken | flushed | stopped | done | applied => cases member

theorem mem_events_commandDone {succeeded : Bool} {event : Event}
    (member : event ∈ (i.commandDone succeeded).worker.stage.events) :
    event ∈ i.worker.stage.events := by
  unfold commandDone at member
  split at member
  case h_1 current pending queue stage =>
    rw [stage]
    cases succeeded <;> exact List.mem_cons_of_mem _ member
  case h_2 => exact member

end Interface

end TargetWakeTime
