import TargetWakeTime.Interface.LocalCall
import TargetWakeTime.Interface.Work
import TargetWakeTime.Proofs.Negotiation.OwnFlows

/-!
Contract: runs of an interface, one action after the other.

Owns:
- the actions: what the surroundings can do to an interface, the steps of its worker, and the answers
  that the worker and local operations wait for;
- the ways in which the worker makes a step;
- the operations on the negotiation state that an action comes down to, so that a run of an interface
  is a run of its negotiation state;
- the ways in which local operations begin, with what they ask of the chip.

The answers of chip and radio are part of the actions, so that a run may get any of them at any time.
A local operation that configures a flow changes nothing before the chip's answer, and has no action
for its first half.
-/

namespace TargetWakeTime.Interface

inductive Action where
  | receiveSetup (source : MacAddress) (token : UInt8) (element : List UInt8)
  | receiveTeardown (source : MacAddress) (flow : UInt8)
  | associationRequest (source : MacAddress) (element : List UInt8)
  | associationResponse (source : MacAddress) (element : List UInt8)
  | associationRequestElement
  | authorized
  | removeStation (peer : MacAddress)
  | purgeEvents (source : Option MacAddress)
  | relink (link : Association)
  | teardown (flow : UInt8)
  /-- A local operation gets the chip's answer. -/
  | complete (call : LocalCall) (answer : Except Host.CommandError Unit)
  /-- An alarm puts work into the worker's inbox. -/
  | wake (work : List Work)
  | work
  | frameSent
  | commandDone (succeeded : Bool)

namespace Action

/-- The interface that an action leaves; what it answers its caller or asks of the outside is
dropped. -/
def apply (i : Interface) : Action → Interface
  | receiveSetup source token element => (i.receiveSetup source token element).2
  | receiveTeardown source flow => (i.receiveTeardown source flow).2
  | associationRequest source element => (i.associationRequest source element).2
  | associationResponse source element => (i.associationResponse source element).2
  | associationRequestElement => i.associationRequestElement.2
  | authorized => i.authorized
  | removeStation peer => (i.removeStation peer).2
  | purgeEvents source => (i.purgeEvents source).2
  | relink link => i.withLink fun _ => link
  | teardown flow => (i.teardown flow).2
  | complete call answer => (i.complete call answer).2
  | wake given => { i with worker := i.worker.push given }
  | work => (i.work.map (·.1)).getD i
  | frameSent => i.frameSent
  | commandDone succeeded => i.commandDone succeeded

/-- Whether an action neither gives the chip a command nor brings its answer. -/
def independent : Action → Bool
  | teardown _ | complete .. | work | commandDone _ => false
  | _ => true

/-- What the interface does to its negotiation state once the element of a frame could be read. -/
def received (element : List UInt8) (afterwards : List Negotiation.Operation) :
    List Negotiation.Operation :=
  match Agreement.parse element with
  | .ok _ => afterwards
  | .error _ => []

/-- The operations of a task, as far as it goes without the outside. -/
def taskOperations (i : Interface) : Task → List Negotiation.Operation
  | .sendTeardown destination flow =>
      if i.negotiation.link.knows destination then [] else [.teardownSent destination flow, .takeTasks]
  | .handleEvents source => [.handleEvents source, .takeTasks]
  | .applyCommands => [.takeCommands]
  | .sendSetup .. | .retryEvents => []

/-- The operations on the negotiation state that an action comes down to. -/
def operations (i : Interface) : Action → List Negotiation.Operation
  | receiveSetup source token element => [.receiveSetup source token element, .takeTasks]
  | receiveTeardown source flow => [.receiveTeardown source flow, .takeTasks]
  | associationRequest source element =>
      .receiveElement source element ::
        (received element [.handleEvents (some source), .takeResponseElement source] ++
          [.takeTasks])
  | associationResponse source element =>
      .receiveElement source element ::
        (received element [.handleEvents (some source)] ++ [.takeTasks])
  | associationRequestElement => [.associationRequestElement, .takeTasks]
  | authorized => [.authorized, .takeTasks]
  | removeStation peer => [.removeStation peer, .takeTasks]
  | purgeEvents source => [.purgeEvents source, .takeTasks]
  | relink link => [.relink link]
  | teardown flow => [.beginTeardown flow, .takeTasks]
  | complete (.install agreement) (.ok ()) => [.forceInstalled agreement, .takeTasks]
  | complete (.negotiate agreement command) (.ok ()) =>
      [.sendRequest agreement command, .takeTasks]
  | complete (.uninstall flow) (.ok ()) => [.commitUninstall flow]
  | complete _ (.error _) => []
  | wake _ => []
  | work =>
      match i.worker.stage with
      | .running (task :: _) => taskOperations i task
      | _ => []
  | frameSent =>
      match i.worker.stage with
      | .transmitting (.sendTeardown destination flow) _ =>
          [.teardownSent destination flow, .takeTasks]
      | _ => []
  | commandDone succeeded =>
      match i.worker.stage with
      | .commanding event _ _ =>
          if succeeded then
            match event.body with
            | .setup .. => [.commitInstall event.flow]
            | .teardown => [.commitUninstall event.flow]
          else []
      | _ => []

end Action

/-- The ways in which the worker makes a step: what it was at, what it leaves, and what it asks of the
outside. -/
inductive Worked (i : Interface) : Interface → Option Request → Prop where
  | taken {task : Task} {inbox : List Work} (stage : i.worker.stage = .idle)
      (first : i.worker.inbox = .task task :: inbox) :
      Worked i { i with worker := ⟨inbox, .running [task]⟩ } none
  | flushed {inbox : List Work} (stage : i.worker.stage = .idle)
      (first : i.worker.inbox = .flush :: inbox) :
      Worked i { i with worker := ⟨inbox, .idle⟩ } none
  | stopped {inbox : List Work} (stage : i.worker.stage = .idle)
      (first : i.worker.inbox = .stop :: inbox) :
      Worked i { i with worker := ⟨[], .stopped⟩ } none
  | performed {task : Task} {queue : List Task} (stage : i.worker.stage = .running (task :: queue)) :
      Worked i (i.perform task queue).1 (i.perform task queue).2
  | done (stage : i.worker.stage = .running []) : Worked i (i.atStage .idle) none
  | begun {event : Event} {pending : List Event} {queue : List Task}
      (stage : i.worker.stage = .applying (event :: pending) queue) :
      Worked i (i.atStage (.commanding event pending queue))
        (some (.command (commandFor i.vif event)))
  | applied {queue : List Task} (stage : i.worker.stage = .applying [] queue) :
      Worked i (i.atStage (.running queue)) none

theorem worked {i after : Interface} {request : Option Request}
    (found : i.work = some (after, request)) : Worked i after request := by
  unfold work at found
  cases stage : i.worker.stage with
  | idle =>
      cases inbox : i.worker.inbox with
      | nil => simp [stage, inbox] at found
      | cons given rest =>
          cases given with
          | task task =>
              obtain ⟨rfl, rfl⟩ : _ = after ∧ _ = request := by simpa [stage, inbox] using found
              exact .taken stage inbox
          | flush =>
              obtain ⟨rfl, rfl⟩ : _ = after ∧ _ = request := by simpa [stage, inbox] using found
              exact .flushed stage inbox
          | stop =>
              obtain ⟨rfl, rfl⟩ : _ = after ∧ _ = request := by simpa [stage, inbox] using found
              exact .stopped stage inbox
  | running queue =>
      cases queue with
      | nil =>
          obtain ⟨rfl, rfl⟩ : _ = after ∧ _ = request := by simpa [stage] using found
          exact .done stage
      | cons task queue =>
          have result : i.perform task queue = (after, request) := by simpa [stage] using found
          have performed := Worked.performed stage
          rwa [result] at performed
  | applying pending queue =>
      cases pending with
      | nil =>
          obtain ⟨rfl, rfl⟩ : _ = after ∧ _ = request := by simpa [stage] using found
          exact .applied stage
      | cons event pending =>
          obtain ⟨rfl, rfl⟩ : _ = after ∧ _ = request := by simpa [stage] using found
          exact .begun stage
  | transmitting | commanding | stopped => simp [stage] at found

open Negotiation (run)

/-- The work of a task leaves the negotiation state as the task's operations do. -/
theorem negotiation_perform (task : Task) (queue : List Task) (i : Interface) :
    (i.perform task queue).1.negotiation = run i.negotiation (Action.taskOperations i task) := by
  cases task with
  | sendSetup destination token element flow =>
      rw [perform, sendFrame]
      split <;> rfl
  | sendTeardown destination flow =>
      rw [perform, sendFrame, Action.taskOperations]
      split <;> rfl
  | applyCommands | handleEvents | retryEvents => rfl

theorem negotiation_work (i : Interface) :
    (Action.work.apply i).negotiation = run i.negotiation (Action.work.operations i) := by
  simp only [Action.apply, Action.operations, work]
  cases stage : i.worker.stage with
  | idle =>
      cases i.worker.inbox with
      | nil => rfl
      | cons work inbox => cases work <;> rfl
  | running queue =>
      cases queue with
      | nil => rfl
      | cons task queue => exact negotiation_perform task queue i
  | applying pending queue => cases pending <;> rfl
  | transmitting | commanding | stopped => rfl

theorem negotiation_frameSent (i : Interface) :
    (Action.frameSent.apply i).negotiation = run i.negotiation (Action.frameSent.operations i) := by
  simp only [Action.apply, Action.operations, frameSent]
  cases stage : i.worker.stage with
  | transmitting task queue => cases task <;> rfl
  | idle | running | applying | commanding | stopped => rfl

theorem negotiation_commandDone (succeeded : Bool) (i : Interface) :
    ((Action.commandDone succeeded).apply i).negotiation =
      run i.negotiation ((Action.commandDone succeeded).operations i) := by
  simp only [Action.apply, Action.operations, commandDone]
  cases stage : i.worker.stage with
  | commanding event pending queue =>
      cases succeeded with
      | true =>
          simp only [if_true, commit]
          cases event.body <;> rfl
      | false => rfl
  | idle | running | applying | transmitting | stopped => rfl

theorem negotiation_complete (call : LocalCall) (answer : Except Host.CommandError Unit)
    (i : Interface) :
    ((Action.complete call answer).apply i).negotiation =
      run i.negotiation ((Action.complete call answer).operations i) := by
  cases answer with
  | error error => cases call <;> rfl
  | ok => cases call <;> rfl

/-- Whether a frame has to go first makes no difference to the first half of a teardown. -/
theorem teardown_snd (flow : UInt8) (i : Interface) :
    (i.teardown flow).2 = (i.operate (·.beginTeardown flow)).2 := by
  unfold teardown
  split <;> simp_all

/-- What an action does to the negotiation state is a run of operations. -/
theorem negotiation_apply (action : Action) (i : Interface) :
    (action.apply i).negotiation = run i.negotiation (action.operations i) := by
  cases action with
  | associationRequest source element =>
      simp only [Action.apply, Action.operations, Action.received, associationRequest, operate,
        Negotiation.receiveElement]
      cases read : Agreement.parse element with
      | error error => simp [run, Negotiation.Operation.apply, Negotiation.receiveElement, read]
      | ok agreement => simp [run, Negotiation.Operation.apply, Negotiation.receiveElement, read]
  | associationResponse source element =>
      simp only [Action.apply, Action.operations, Action.received, associationResponse, operate,
        Negotiation.receiveElement]
      cases read : Agreement.parse element with
      | error error => simp [run, Negotiation.Operation.apply, Negotiation.receiveElement, read]
      | ok agreement => simp [run, Negotiation.Operation.apply, Negotiation.receiveElement, read]
  | teardown flow =>
      rw [Action.apply, teardown_snd]
      rfl
  | complete call answer => exact negotiation_complete call answer i
  | work => exact negotiation_work i
  | frameSent => exact negotiation_frameSent i
  | commandDone succeeded => exact negotiation_commandDone succeeded i
  | receiveSetup | receiveTeardown | associationRequestElement | authorized | removeStation
      | purgeEvents | relink | wake => rfl

/-! ### How local operations begin -/

/-- The ways in which a request passes its checks, with the call and the command that follow. -/
inductive Configured (r : SetupRequest) (i : Interface) : LocalCall → Host.Command → Prop where
  | installs {agreement : Agreement} (mode : r.mode = .forceInstall)
      (built : r.build = .ok agreement) (free : i.negotiation.own.isInstalled r.flow = false) :
      Configured r i (.install agreement) (.install i.vif agreement.flow agreement.chipBlob)
  | asks {agreement : Agreement} (mode : r.mode = .negotiate) (built : r.build = .ok agreement)
      (free : i.negotiation.own.isInstalled r.flow = false) (request : r.command.isRequest = true) :
      Configured r i (.negotiate agreement r.command)
        (.validate i.vif agreement.flow agreement.chipBlob)

variable {r : SetupRequest} {i : Interface} {call : LocalCall} {command : Host.Command}

theorem isInstalled_of_ensureConfigurable {flow : UInt8} {n : Negotiation}
    (configurable : n.ensureConfigurable flow = .ok ()) : n.own.isInstalled flow = false := by
  unfold Negotiation.ensureConfigurable at configurable
  split at configurable
  case isTrue => cases configurable
  case isFalse =>
    split at configurable
    case isTrue => cases configurable
    case isFalse free => exact Bool.eq_false_iff.mpr free

theorem configured (passed : i.configure r = .ok (call, command)) : Configured r i call command := by
  unfold configure at passed
  split at passed
  case h_1 => cases passed
  case h_2 agreement built =>
    split at passed
    case h_1 => cases passed
    case h_2 configurable =>
      have free := isInstalled_of_ensureConfigurable configurable
      split at passed
      case h_1 mode =>
        cases passed
        exact .installs mode built free
      case h_2 mode =>
        split at passed
        case isTrue => cases passed
        case isFalse =>
          split at passed
          case isTrue => cases passed
          case isFalse request =>
            cases passed
            exact .asks mode built free (by simpa using request)

/-- A teardown asks the chip for nothing but to remove the flow, which is one of the eight. -/
theorem teardown_asks {flow : UInt8} {after : Interface}
    (begun : i.teardown flow = (.ok (some (call, command)), after)) :
    call = .uninstall flow ∧ command = .remove after.vif flow ∧ flow.toNat < 8 := by
  unfold teardown at begun
  split at begun
  case h_1 | h_3 => cases begun
  case h_2 next ended =>
    cases begun
    have ways := Negotiation.teardownBegun flow i.negotiation
    have answer : (i.negotiation.beginTeardown flow).1 = .ok true := congrArg (·.1) ended
    generalize i.negotiation.beginTeardown flow = result at ways answer
    cases ways with
    | refused | announced => cases answer
    | unannounced active => exact ⟨rfl, rfl, active.1⟩

end TargetWakeTime.Interface
