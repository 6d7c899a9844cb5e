import TargetWakeTime.Proofs.Interface.LocalOperation
import TargetWakeTime.Proofs.Negotiation.Deferral

/-!
Contract: where the work goes that the negotiation state defers.

Owns:
- the steps of an interface, which are its actions and clearing it, and its endless courses;
- for each step, the tasks that the worker begins with it and those that the state defers in it;
- the two ways in which deferred tasks are handed over: into the inbox, or behind the tasks at hand
  if it is the worker itself that works on the state;
- the ledger of all tasks, which holds until the worker is stopped.

A course is endless, so that it can be said what happens eventually. What holds at every point of
all courses holds along all finite runs.
-/

namespace TargetWakeTime

def Work.task? : Work → Option Task
  | task given => some given
  | flush | stop => none

namespace Worker

/-- The tasks that follow the one at hand. -/
def Stage.queue : Stage → List Task
  | idle | stopped => []
  | running queue | applying _ queue | transmitting _ queue | commanding _ _ queue => queue

/-- The tasks that were handed over and not begun. -/
def outstanding (w : Worker) : List Task := w.stage.queue ++ w.inbox.filterMap Work.task?

theorem filterMap_task? (tasks : List Task) :
    (tasks.map Work.task).filterMap Work.task? = tasks := by
  rw [List.filterMap_map]
  exact List.filterMap_some

theorem stage_push (given : List Work) (w : Worker) : (w.push given).stage = w.stage := by
  unfold push
  split <;> rfl

theorem inbox_push {w : Worker} (goesOn : w.stage ≠ .stopped) (given : List Work) :
    (w.push given).inbox = w.inbox ++ given := by
  unfold push
  split
  case h_1 stopped => exact absurd stopped goesOn
  case h_2 => rfl

theorem outstanding_push {w : Worker} (goesOn : w.stage ≠ .stopped) (given : List Work) :
    (w.push given).outstanding = w.outstanding ++ given.filterMap Work.task? := by
  rw [outstanding, outstanding, stage_push, inbox_push goesOn, List.filterMap_append,
    List.append_assoc]

end Worker

namespace Interface

/-- What happens to an interface. -/
inductive Step where
  | act (action : Action)
  /-- Everything is forgotten, as at the end of an interface. -/
  | clear

namespace Step

def apply (i : Interface) : Step → Interface
  | act action => action.apply i
  | clear => i.clear

/-- The operations on the negotiation state that a step comes down to. -/
def operations (i : Interface) : Step → List Negotiation.Operation
  | act action => action.operations i
  | clear => [.clear]

/-- Whether a step is one of the worker, or brings an answer that the worker waits for. -/
def isOwn : Step → Bool
  | act .work | act .frameSent | act (.commandDone _) => true
  | _ => false

/-- The task that the worker begins. -/
def begun (i : Interface) : Step → List Task
  | act .work =>
      match i.worker.stage with
      | .running (task :: _) => [task]
      | _ => []
  | _ => []

/-- The tasks that the negotiation state defers. -/
def deferred (i : Interface) (step : Step) : List Task :=
  Negotiation.deferredBy i.negotiation (step.operations i)

/-- The tasks that come up in the course of another one. -/
def led (i : Interface) (step : Step) : List Task := if step.isOwn then step.deferred i else []

/-- The work that an alarm brings. -/
def woken : Step → List Work
  | act (.wake given) => given
  | _ => []

/-- The tasks that an alarm brings. -/
def brought (_ : Interface) (step : Step) : List Task := step.woken.filterMap Work.task?

end Step

variable {i : Interface}

theorem Reachable.orderly (reachable : Reachable i) : i.negotiation.Orderly := by
  have run (operations : List Negotiation.Operation) {n : Negotiation} (orderly : n.Orderly) :
      (Negotiation.run n operations).Orderly :=
    Negotiation.invariant_of_apply Negotiation.Orderly
      (fun _ operation kept => Negotiation.orderly_apply kept operation) orderly _
      (Negotiation.run_mem_reached n operations)
  induction reachable with
  | new vif address settings => exact Negotiation.orderly_new settings
  | act _ action orderly =>
      rw [negotiation_apply]
      exact run _ orderly
  | clear _ orderly => exact Negotiation.orderly_apply orderly .clear

theorem Reachable.step (reachable : Reachable i) (next : Step) : Reachable (next.apply i) := by
  cases next with
  | act action => exact .act reachable action
  | clear => exact .clear reachable

/-! ### Into the inbox -/

/-- An operation that leaves the tasks as they are defers none. -/
theorem deferredBy_of_silent {n : Negotiation} {operation : Negotiation.Operation}
    (silent : (operation.apply n).tasks = n.tasks) : Negotiation.deferredBy n [operation] = [] := by
  simp [Negotiation.deferredBy, Negotiation.steps, Runs.steps, Negotiation.Operation.deferred,
    silent]

/-- What is deferred before the tasks are taken goes into the inbox. -/
theorem worker_operate {α : Type} {operation : Negotiation → α × Negotiation}
    {operations : List Negotiation.Operation} (reachable : Reachable i)
    (keep : ∀ operation ∈ operations, operation.empties = false)
    (runs : (operation i.negotiation).2 = Negotiation.run i.negotiation operations) :
    (i.operate operation).2.worker = i.worker.push
      ((Negotiation.deferredBy i.negotiation (operations ++ [.takeTasks])).map .task) := by
  rw [Negotiation.deferredBy_takeTasks reachable.orderly reachable.tasks keep, ← runs]
  rfl

/-- What is deferred in an action that is not the worker's goes into the inbox. -/
theorem worker_apply {action : Action} (reachable : Reachable i)
    (others : (Step.act action).isOwn = false) (unwoken : (Step.act action).woken = []) :
    (action.apply i).worker =
      i.worker.push ((Negotiation.deferredBy i.negotiation (action.operations i)).map .task) := by
  have silent {operation : Negotiation.Operation}
      (same : (operation.apply i.negotiation).tasks = i.negotiation.tasks) :
      i.worker = i.worker.push ((Negotiation.deferredBy i.negotiation [operation]).map .task) := by
    rw [deferredBy_of_silent same, List.map_nil, push_nil]
  have single {α : Type} {operation : Negotiation → α × Negotiation}
      {only : Negotiation.Operation} (keeps : only.empties = false)
      (runs : (operation i.negotiation).2 = only.apply i.negotiation) :
      (i.operate operation).2.worker = i.worker.push
        ((Negotiation.deferredBy i.negotiation ([only] ++ [.takeTasks])).map .task) :=
    worker_operate reachable (List.forall_mem_singleton.mpr keeps) runs
  cases action with
  | work | frameSent | commandDone => cases others
  | wake given =>
      obtain rfl : given = [] := unwoken
      rfl
  | relink link => exact silent rfl
  | associationRequest source element | associationResponse source element =>
      rw [Action.operations, Action.received, ← List.cons_append]
      refine worker_operate reachable ?_ ?_
      · split <;> simp [Negotiation.Operation.empties]
      · cases read : Agreement.parse element <;>
          simp [Negotiation.run, Negotiation.Operation.apply, Negotiation.receiveElement, read]
  | teardown flow =>
      rw [Action.apply, teardown_snd]
      exact single rfl rfl
  | complete call answer =>
      cases answer with
      | error error =>
          have same : i.worker = i.worker.push [] := (push_nil i.worker).symm
          cases call <;> exact same
      | ok =>
          cases call with
          | install | negotiate => exact single rfl rfl
          | uninstall flow => exact silent rfl
  | receiveSetup | receiveTeardown | associationRequestElement | authorized | removeStation
      | purgeEvents => exact single rfl rfl

/-! ### Behind the tasks at hand -/

/-- A step in the course of a task: what is deferred follows the tasks at hand, of which the first
may be begun. -/
structure Onward (i : Interface) (begun deferred : List Task) (after : Worker) : Prop where
  inbox : after.inbox = i.worker.inbox
  queue : begun ++ after.stage.queue = i.worker.stage.queue ++ deferred

/-- The ways in which a worker that has its turn moves tasks. -/
inductive Moved (i : Interface) (begun deferred : List Task) (after : Worker) : Prop where
  | onward (onward : Onward i begun deferred after)
  | taken {task : Task} {inbox : List Work} (idle : i.worker.stage = .idle)
      (first : i.worker.inbox = .task task :: inbox) (still : begun = [] ∧ deferred = [])
      (next : after = ⟨inbox, .running [task]⟩)
  | flushed {inbox : List Work} (idle : i.worker.stage = .idle)
      (first : i.worker.inbox = .flush :: inbox) (still : begun = [] ∧ deferred = [])
      (next : after = ⟨inbox, .idle⟩)
  | stopped {inbox : List Work} (idle : i.worker.stage = .idle)
      (first : i.worker.inbox = .stop :: inbox) (next : after = ⟨[], .stopped⟩)

/-- An operation in the course of a task leaves what it defers behind the tasks at hand. -/
theorem queue_continueWith {operation : Negotiation → Negotiation}
    {only : Negotiation.Operation} (reachable : Reachable i) (keeps : only.empties = false)
    (runs : operation i.negotiation = only.apply i.negotiation) (queue : List Task) :
    (i.continueWith operation queue).worker.stage.queue =
      queue ++ Negotiation.deferredBy i.negotiation [only, .takeTasks] := by
  have all : Negotiation.deferredBy i.negotiation ([only] ++ [.takeTasks]) =
      (only.apply i.negotiation).tasks :=
    Negotiation.deferredBy_takeTasks reachable.orderly reachable.tasks
      (List.forall_mem_singleton.mpr keeps)
  rw [List.singleton_append] at all
  rw [all, ← runs]
  rfl

/-- A task is begun, and what it leads to at once goes behind the others. -/
theorem queue_perform (reachable : Reachable i) (task : Task) (queue : List Task) :
    (i.perform task queue).1.worker.stage.queue =
      queue ++ Negotiation.deferredBy i.negotiation (Action.taskOperations i task) := by
  have nothing : queue = queue ++ Negotiation.deferredBy i.negotiation [] :=
    (List.append_nil _).symm
  cases task with
  | sendSetup destination token element flow =>
      rw [perform, sendFrame]
      split <;> exact nothing
  | sendTeardown destination flow =>
      rw [perform, sendFrame, Action.taskOperations]
      split
      · exact nothing
      · exact queue_continueWith reachable rfl rfl queue
  | handleEvents source => exact queue_continueWith reachable rfl rfl queue
  | applyCommands =>
      rw [Action.taskOperations, deferredBy_of_silent rfl, List.append_nil]
      rfl
  | retryEvents => exact nothing

/-- No task touches the inbox. -/
theorem inbox_perform (task : Task) (queue : List Task) (i : Interface) :
    (i.perform task queue).1.worker.inbox = i.worker.inbox := by
  cases task with
  | sendSetup | sendTeardown =>
      rw [perform, sendFrame]
      split <;> rfl
  | handleEvents | applyCommands | retryEvents => rfl

/-- Where no task is next, a step of the worker begins none and defers nothing. -/
theorem still_work (apart : ∀ task queue, i.worker.stage ≠ .running (task :: queue)) :
    (Step.act .work).begun i = [] ∧ (Step.act .work).deferred i = [] := by
  have nothing : (Step.act .work).operations i = [] := by
    simp only [Step.operations, Action.operations]
  refine ⟨by simp only [Step.begun], ?_⟩
  rw [Step.deferred, nothing]
  rfl

theorem moved_work (reachable : Reachable i) :
    Moved i ((Step.act .work).begun i) ((Step.act .work).deferred i)
      (Action.work.apply i).worker := by
  have unmoved {after : Worker} (apart : ∀ task queue, i.worker.stage ≠ .running (task :: queue))
      (inbox : after.inbox = i.worker.inbox) (queue : after.stage.queue = i.worker.stage.queue) :
      Moved i ((Step.act .work).begun i) ((Step.act .work).deferred i) after := by
    obtain ⟨begun, deferred⟩ := still_work apart
    exact .onward ⟨inbox, by rw [begun, deferred, queue, List.append_nil, List.nil_append]⟩
  cases found : i.work with
  | none =>
      have same : Action.work.apply i = i := by rw [Action.apply, found]; rfl
      have apart (task : Task) (queue : List Task) : i.worker.stage ≠ .running (task :: queue) := by
        intro stage
        simp [work, stage] at found
      rw [same]
      exact unmoved apart rfl rfl
  | some result =>
      obtain ⟨after, request⟩ := result
      have next : Action.work.apply i = after := by rw [Action.apply, found]; rfl
      rw [next]
      cases worked found with
      | taken stage first => exact .taken stage first (still_work (by simp [stage])) rfl
      | flushed stage first => exact .flushed stage first (still_work (by simp [stage])) rfl
      | stopped stage first => exact .stopped stage first rfl
      | @performed task queue stage =>
          have begun : (Step.act .work).begun i = [task] := by simp [Step.begun, stage]
          have deferred : (Step.act .work).deferred i =
              Negotiation.deferredBy i.negotiation (Action.taskOperations i task) := by
            simp [Step.deferred, Step.operations, Action.operations, stage]
          refine .onward ⟨inbox_perform task queue i, ?_⟩
          rw [begun, deferred, queue_perform reachable, stage]
          rfl
      | done stage | begun stage | applied stage =>
          exact unmoved (by simp [stage]) rfl (by rw [stage]; rfl)

theorem onward_frameSent (reachable : Reachable i) :
    Onward i ((Step.act .frameSent).begun i) ((Step.act .frameSent).deferred i)
      (Action.frameSent.apply i).worker := by
  simp only [Step.begun, Step.deferred, Step.operations, Action.operations, Action.apply, frameSent]
  cases stage : i.worker.stage with
  | transmitting task queue =>
      refine ⟨?_, ?_⟩
      · cases task <;> rfl
      · rw [stage]
        cases task with
        | sendTeardown destination flow => exact queue_continueWith reachable rfl rfl queue
        | sendSetup | handleEvents | applyCommands | retryEvents =>
            exact (List.append_nil _).symm
  | idle | running | applying | commanding | stopped => exact ⟨rfl, (List.append_nil _).symm⟩

theorem onward_commandDone (succeeded : Bool) (i : Interface) :
    Onward i ((Step.act (.commandDone succeeded)).begun i)
      ((Step.act (.commandDone succeeded)).deferred i)
      ((Action.commandDone succeeded).apply i).worker := by
  simp only [Step.begun, Step.deferred, Step.operations, Action.operations, Action.apply,
    commandDone]
  cases stage : i.worker.stage with
  | commanding event pending queue =>
      have silent {noted : Negotiation.Operation}
          (same : (noted.apply i.negotiation).tasks = i.negotiation.tasks) :
          queue = queue ++ Negotiation.deferredBy i.negotiation [noted] := by
        rw [deferredBy_of_silent same, List.append_nil]
      cases succeeded with
      | false =>
          refine ⟨rfl, ?_⟩
          rw [stage]
          exact (List.append_nil _).symm
      | true =>
          refine ⟨rfl, ?_⟩
          rw [stage]
          simp only [if_true]
          split
          · exact silent rfl
          · exact silent rfl
  | idle | running | applying | transmitting | stopped => exact ⟨rfl, (List.append_nil _).symm⟩

/-- Every step of the worker moves tasks in one of these ways. -/
theorem moved_of_own {next : Step} (reachable : Reachable i) (own : next.isOwn = true) :
    Moved i (next.begun i) (next.deferred i) (next.apply i).worker := by
  cases next with
  | clear => cases own
  | act action =>
      cases action
      case work => exact moved_work reachable
      case frameSent => exact .onward (onward_frameSent reachable)
      case commandDone succeeded => exact .onward (onward_commandDone succeeded i)
      all_goals cases own

/-- Only a worker that is idle and has its turn takes anything out of the inbox. -/
theorem onward_of_own {next : Step} (reachable : Reachable i) (own : next.isOwn = true)
    (apart : i.worker.stage ≠ .idle ∨ next ≠ .act .work) :
    Onward i (next.begun i) (next.deferred i) (next.apply i).worker := by
  cases next with
  | clear => cases own
  | act action =>
      cases action
      case work =>
        have busy : i.worker.stage ≠ .idle := apart.resolve_right fun other => other rfl
        cases moved_work reachable with
        | onward onward => exact onward
        | taken idle | flushed idle | stopped idle => exact absurd idle busy
      case frameSent => exact onward_frameSent reachable
      case commandDone succeeded => exact onward_commandDone succeeded i
      all_goals cases own

/-! ### The ledger -/

/-- A step that is not the worker's puts work into the inbox and does nothing else to the worker. -/
theorem worker_of_others {next : Step} (reachable : Reachable i) (others : next.isOwn = false) :
    (next.apply i).worker = i.worker.push ((next.deferred i).map .task ++ next.woken) := by
  cases next with
  | clear =>
      have silent : (Step.clear).deferred i = [] := deferredBy_of_silent reachable.tasks.symm
      rw [silent]
      exact (push_nil i.worker).symm
  | act action =>
      by_cases wakes : ∃ given, action = .wake given
      · obtain ⟨given, rfl⟩ := wakes
        rfl
      · have unwoken : (Step.act action).woken = [] := by
          unfold Step.woken
          split
          case h_1 given same =>
            cases same
            exact absurd ⟨given, rfl⟩ wakes
          case h_2 => rfl
        rw [unwoken, List.append_nil]
        exact worker_apply reachable others unwoken

theorem begun_of_others {next : Step} (others : next.isOwn = false) : next.begun i = [] := by
  unfold Step.begun
  split
  · cases others
  · rfl

/-- A worker that was stopped stays so. -/
theorem goesOn_of_step {next : Step} (reachable : Reachable i)
    (goesOn : (next.apply i).worker.stage ≠ .stopped) : i.worker.stage ≠ .stopped := by
  intro stopped
  apply goesOn
  cases own : next.isOwn with
  | false => rw [worker_of_others reachable own, Worker.stage_push, stopped]
  | true =>
      cases next with
      | clear => cases own
      | act action =>
          cases action
          case work => simp [Step.apply, Action.apply, work, stopped]
          case frameSent => simp [Step.apply, Action.apply, frameSent, stopped]
          case commandDone => simp [Step.apply, Action.apply, commandDone, stopped]
          all_goals cases own

/-- In a step, the tasks that were handed over are begun or stay, and what is new comes to them. -/
theorem outstanding_step (reachable : Reachable i) (next : Step)
    (goesOn : (next.apply i).worker.stage ≠ .stopped) :
    (next.begun i ++ (next.apply i).worker.outstanding).Perm
      (i.worker.outstanding ++ (next.brought i ++ next.deferred i)) := by
  have before := goesOn_of_step reachable goesOn
  cases own : next.isOwn with
  | false =>
      have pushed : (next.apply i).worker.outstanding =
          i.worker.outstanding ++ (next.deferred i ++ next.brought i) := by
        rw [worker_of_others reachable own, Worker.outstanding_push before,
          List.filterMap_append, Worker.filterMap_task?]
        rfl
      rw [begun_of_others own, pushed, List.nil_append]
      exact List.perm_append_comm.append_left _
  | true =>
      have brought : next.brought i = [] := by
        cases next with
        | clear => rfl
        | act action =>
            cases action
            case wake => cases own
            all_goals rfl
      have moved := moved_of_own reachable own
      generalize (next.apply i).worker = after at moved goesOn ⊢
      generalize next.begun i = begun at moved ⊢
      generalize next.deferred i = deferred at moved ⊢
      rw [brought, List.nil_append, Worker.outstanding, Worker.outstanding]
      cases moved with
      | onward onward =>
          rw [onward.inbox, ← List.append_assoc, onward.queue, List.append_assoc,
            List.append_assoc]
          exact List.perm_append_comm.append_left _
      | taken idle first still same =>
          obtain ⟨rfl, rfl⟩ := still
          rw [same, idle, first]
          exact (List.append_nil _).symm ▸ List.Perm.refl _
      | flushed idle first still same =>
          obtain ⟨rfl, rfl⟩ := still
          rw [same, idle, first]
          exact (List.append_nil _).symm ▸ List.Perm.refl _
      | stopped idle first same => exact absurd (congrArg Worker.stage same) goesOn

/-! ### Courses -/

/-- An endless course of a new interface. -/
structure Course where
  vif : UInt16
  address : MacAddress
  settings : Negotiation.Settings
  steps : Nat → Step

namespace Course

def state (c : Course) : Nat → Interface
  | 0 => .new c.vif c.address c.settings
  | k + 1 => (c.steps k).apply (c.state k)

/-- A part of what happens in so many steps from the first one on. -/
def gather (part : Interface → Step → List Task) (first count : Nat) (c : Course) : List Task :=
  (List.range' first count).flatMap fun k => part (c.state k) (c.steps k)

variable {c : Course} {part : Interface → Step → List Task}

theorem gather_succ (first count : Nat) :
    c.gather part first (count + 1) =
      c.gather part first count ++ part (c.state (first + count)) (c.steps (first + count)) := by
  rw [gather, List.range'_1_concat, List.flatMap_append, List.flatMap_singleton]
  rfl

theorem reachable_state (c : Course) (k : Nat) : Reachable (c.state k) := by
  induction k with
  | zero => exact .new ..
  | succ k reachable => exact reachable.step (c.steps k)

open scoped List in
/-- Until the worker is stopped, the tasks that were begun and those that are outstanding are
together those that alarms brought and those that the state deferred, each exactly as often. -/
theorem ledger (c : Course) (k : Nat) (goesOn : (c.state k).worker.stage ≠ .stopped) :
    (c.gather Step.begun 0 k ++ (c.state k).worker.outstanding).Perm
      (c.gather Step.brought 0 k ++ c.gather Step.deferred 0 k) := by
  induction k with
  | zero => exact .refl []
  | succ k inductionHypothesis =>
      have reachable := c.reachable_state k
      have before := inductionHypothesis (goesOn_of_step reachable goesOn)
      have now := outstanding_step reachable (c.steps k) goesOn
      rw [gather_succ, gather_succ, gather_succ, Nat.zero_add]
      generalize c.gather Step.begun 0 k = begun at before ⊢
      generalize c.gather Step.brought 0 k = brought at before ⊢
      generalize c.gather Step.deferred 0 k = deferred at before ⊢
      generalize (c.steps k).begun (c.state k) = begunNow at now ⊢
      generalize (c.steps k).brought (c.state k) = broughtNow at now ⊢
      generalize (c.steps k).deferred (c.state k) = deferredNow at now ⊢
      calc begun ++ begunNow ++ (c.state (k + 1)).worker.outstanding
          = begun ++ (begunNow ++ (c.state (k + 1)).worker.outstanding) := List.append_assoc ..
        _ ~ begun ++ ((c.state k).worker.outstanding ++ (broughtNow ++ deferredNow)) :=
            now.append_left _
        _ = begun ++ (c.state k).worker.outstanding ++ (broughtNow ++ deferredNow) :=
            (List.append_assoc ..).symm
        _ ~ brought ++ deferred ++ (broughtNow ++ deferredNow) := before.append_right _
        _ = brought ++ (deferred ++ (broughtNow ++ deferredNow)) := List.append_assoc ..
        _ ~ brought ++ (broughtNow ++ (deferred ++ deferredNow)) :=
            (List.perm_append_comm_assoc ..).append_left _
        _ = brought ++ broughtNow ++ (deferred ++ deferredNow) := (List.append_assoc ..).symm

end Course

end Interface

end TargetWakeTime
