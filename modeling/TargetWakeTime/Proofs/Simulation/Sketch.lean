import TargetWakeTime.Proofs.Host.Prompt
import TargetWakeTime.Proofs.Interface.Agenda
import TargetWakeTime.Proofs.Interface.Mirror
import TargetWakeTime.Proofs.Simulation.Turns

/-!
Contract: what matters of a node whose worker has at most one duty at a time.

Owns:
- sketches, which tell what a node does without telling how its worker and its channel do it;
- what a sketch leads to, on its own or when a frame comes in;
- that a node does what its sketch says: each of its steps leads where the sketch leads, or leads
  nowhere and leaves the worker less to idle with.

A sketch says nothing about who waits for the worker. Whether someone waits behind a command that the
chip has got is kept beside it.
-/

namespace TargetWakeTime.Simulation

open Host (Chip Command)

/-- What a worker is doing. -/
inductive Activity where
  | resting
  | facing (task : Task)
  /-- Has an event to carry out on the chip. -/
  | begun (event : Event)
  /-- The command of the event waits for the channel. -/
  | asking (event : Event)
  /-- The chip has executed the command, and the confirm arrives at the time `due`. -/
  | awaiting (event : Event) (due : Nat) (status : UInt32)
  /-- The confirm has come. -/
  | answered (event : Event) (status : UInt32)
deriving DecidableEq, Repr

namespace Activity

/-- What a worker does that has these tasks, if there is at most one. -/
def ofTasks : List Task → Activity
  | [] => resting
  | task :: _ => facing task

/-- What a worker does that has these events to carry out, if there is at most one. -/
def ofEvents : List Event → Activity
  | [] => resting
  | event :: _ => begun event

def duties : Activity → List Duty
  | resting => []
  | facing task => [.task task]
  | begun event => [.carryOut event]
  | asking event | awaiting event .. | answered event _ => [.hear event]

/-- How far the channel to the chip is meanwhile. -/
def Shows (vif : UInt16) (now : Nat) (bus : Host.Bus Caller Chip) : Activity → Prop
  | resting | facing _ | begun _ => bus.Idle ∧ bus.channel.queue = []
  | asking event =>
      bus.Idle ∧ ∃ wait,
        bus.channel.queue = [{ caller := .worker, command := Interface.commandFor vif event, wait }]
  | awaiting event due status =>
      bus.channel.queue = [] ∧ ∃ wait,
        bus.Awaited now due
          { caller := .worker, command := Interface.commandFor vif event, wait, status }
  | answered event status =>
      bus.channel.queue = [] ∧ ∃ wait,
        bus.Answered { caller := .worker, command := Interface.commandFor vif event, wait, status }

/-- Someone waits behind the command that the chip has got, if it has got one, and there is no other
work. -/
def Marked (inbox : List Work) : Activity → Prop
  | resting => True
  | awaiting .. | answered .. => .flush ∈ inbox
  | facing _ | begun _ | asking _ => False

end Activity

/-- What matters of a node. -/
structure Sketch where
  vif : UInt16
  address : MacAddress
  negotiation : Negotiation
  activity : Activity
  /-- The agreements that the chip runs. -/
  installed : Chip.Table

/-- A node is as its sketch says, at this time. -/
structure Node.Draws (now : Nat) (marked : Bool) (x : Sketch) (n : Node) : Prop where
  vif : n.interface.vif = x.vif
  address : n.interface.address = x.address
  negotiation : n.interface.negotiation = x.negotiation
  duties : n.interface.worker.duties = x.activity.duties
  prompt : n.bus.Prompt
  shown : x.activity.Shows x.vif now n.bus
  installed : n.bus.link.installed = x.installed
  alarms : n.alarms = []
  marks : marked = true → x.activity.Marked n.interface.worker.inbox

namespace Sketch

/-- What the negotiation state does with a frame. -/
def taken (source : MacAddress) (frame : ActionFrame) (n : Negotiation) : Negotiation :=
  if frame.setup then (n.receiveSetup source frame.token frame.payload).2
  else
    match frame.payload with
    | flow :: _ => (n.receiveTeardown source flow).2
    | [] => n

/-- A sketch after an operation on its negotiation state, whose tasks are all that is to be done. -/
def after (result : List Task × Negotiation) (x : Sketch) : Sketch :=
  { x with negotiation := result.2, activity := .ofTasks result.1 }

/-- A frame comes in. -/
def receive (source : MacAddress) (frame : ActionFrame) (x : Sketch) : Sketch :=
  x.after (taken source frame x.negotiation).takeTasks

/-- What the worker leads to next, and the frame that it sends. A command that the chip gets now is
confirmed at the time `due`. -/
def next? (due : Nat) (x : Sketch) : Option (Sketch × Option ActionFrame) :=
  match x.activity with
  | .resting | .awaiting .. | .facing .retryEvents => none
  | .facing (.handleEvents source) =>
      some (x.after (x.negotiation.handleEvents source).takeTasks, none)
  | .facing .applyCommands =>
      let (events, negotiation) := x.negotiation.takeCommands
      some ({ x with negotiation, activity := .ofEvents events }, none)
  | .facing (.sendSetup destination token element _) =>
      some ({ x with activity := .resting },
        some { destination, payload := element, token, setup := true })
  | .facing (.sendTeardown destination flow) =>
      some (x.after (x.negotiation.teardownSent destination flow).takeTasks,
        some { destination, payload := [flow], token := 0, setup := false })
  | .begun event => some ({ x with activity := .asking event }, none)
  | .asking event =>
      let (status, installed) := Chip.execute x.installed (Interface.commandFor x.vif event)
      some ({ x with activity := .awaiting event due status, installed }, none)
  | .answered event status =>
      some ({ x with
        activity := .resting
        negotiation :=
          if status = 0 then Interface.commit event x.negotiation else x.negotiation }, none)

/-- Whether what the sketch leads to leaves at most one duty, and a frame that is to be sent goes to a
known peer. -/
def Able (x : Sketch) : Prop :=
  match x.activity with
  | .facing (.handleEvents source) => (x.negotiation.handleEvents source).tasks.length ≤ 1
  | .facing .applyCommands => x.negotiation.own.commands.toList.length ≤ 1
  | .facing (.sendSetup destination ..) => x.negotiation.link.knows destination = true
  | .facing (.sendTeardown destination flow) =>
      x.negotiation.link.knows destination = true ∧
        (x.negotiation.teardownSent destination flow).tasks.length ≤ 1
  | .facing .retryEvents => False
  | .resting | .begun _ | .asking _ | .awaiting .. | .answered .. => True

/-- What has arrived by now comes in from the chip. -/
def delivered (now : Nat) (x : Sketch) : Sketch :=
  match x.activity with
  | .awaiting event due status =>
      if due ≤ now then { x with activity := .answered event status } else x
  | .resting | .facing _ | .begun _ | .asking _ | .answered .. => x

/-- When time alone makes the next thing happen, unless the worker can go on. -/
def timer? (x : Sketch) : Option Nat :=
  match x.activity with
  | .awaiting _ due _ => some due
  | .resting | .facing _ | .begun _ | .asking _ | .answered .. => none

end Sketch

variable {n m : Node} {x y : Sketch} {now : Nat} {marked : Bool}

namespace Node

theorem ring_of_noAlarms (alarms : n.alarms = []) (now : Nat) : n.ring now = n := by
  have kept : n.interface.worker.push [] = n.interface.worker := by
    unfold Worker.push
    split
    · rfl
    · rw [List.append_nil]
  obtain ⟨interface, bus, pending, answer⟩ := n
  obtain rfl : pending = [] := alarms
  show ({ bus, answer, alarms := []
          interface := { interface with worker := interface.worker.push [] } } : Node) = _
  rw [kept]

theorem deliver_of_noAlarms (alarms : n.alarms = []) (now : Nat) :
    n.deliver now = { n with bus := n.bus.deliver now } :=
  ring_of_noAlarms (n := { n with bus := n.bus.deliver now }) alarms now

theorem holds_iff_holder? (caller : Caller) :
    n.holds caller = true ↔ n.bus.channel.holder? = some caller := by
  simp [holds]

end Node

namespace Node.Draws

/-- A node whose worker only idles is still as its sketch says. -/
theorem idled {i : Interface} (draws : n.Draws now marked x) (idled : Interface.Idled n.interface i)
    (resting : marked = true → x.activity = .resting) :
    ({ n with interface := i } : Node).Draws now marked x where
  vif := idled.same ▸ draws.vif
  address := idled.same ▸ draws.address
  negotiation := idled.same ▸ draws.negotiation
  duties := idled.duties.trans draws.duties
  prompt := draws.prompt
  shown := draws.shown
  installed := draws.installed
  alarms := draws.alarms
  marks isMarked := by
    rw [resting isMarked]
    trivial

/-- The worker has a command on the channel exactly if its sketch says so. -/
theorem holds_iff (draws : n.Draws now marked x) :
    n.holds .worker = true ↔
      (∃ event, x.activity = .asking event) ∨ (∃ event due status, x.activity = .awaiting event due status) ∨
        ∃ event status, x.activity = .answered event status := by
  have shown := draws.shown
  rw [holds_iff_holder?]
  cases activity : x.activity with
  | resting | facing | begun =>
      rw [activity] at shown
      simp [shown.1.holder?_of_empty shown.2]
  | asking event =>
      rw [activity] at shown
      obtain ⟨idle, wait, queue⟩ := shown
      simp [idle.holder?_of_queued queue]
  | awaiting event due status =>
      rw [activity] at shown
      obtain ⟨-, wait, awaited⟩ := shown
      simp [awaited.holder?]
  | answered event status =>
      rw [activity] at shown
      obtain ⟨-, wait, answered⟩ := shown
      simp [answered.holder?]

/-! ### Steps on the channel -/

/-- The chip executes the command that waits for the channel. -/
theorem step?_of_asking {event : Event} (draws : n.Draws now marked x)
    (asks : x.activity = .asking event) :
    ∃ m due y, n.step? now .worker = some m ∧ now ≤ due ∧ x.next? due = some (y, none) ∧
      m.Draws now marked y ∧ m.interface = n.interface := by
  have held := draws.holds_iff.mpr (.inl ⟨event, asks⟩)
  have shown := draws.shown
  have marks := draws.marks
  rw [asks] at shown marks
  obtain ⟨idle, wait, queue⟩ := shown
  obtain ⟨bus, stepped, prompt, emptied, installed, awaited⟩ :=
    idle.step?_of_queued now draws.prompt queue
  refine ⟨{ n with bus }, now + n.bus.link.settings.latency, _, ?_, Nat.le_add_right ..,
    by rw [Sketch.next?, asks], ?_, rfl⟩
  · rw [Node.step?, if_pos held, stepped]
    rfl
  · exact
      { vif := draws.vif
        address := draws.address
        negotiation := draws.negotiation
        duties := draws.duties.trans (by rw [asks]; rfl)
        prompt
        shown := ⟨emptied, wait, draws.installed ▸ awaited⟩
        installed := installed.trans (congrArg
          (fun table => (Chip.execute table (Interface.commandFor x.vif event)).2) draws.installed)
        alarms := draws.alarms
        marks := fun isMarked => (marks isMarked).elim }

/-- What a worker that gets the chip's answer makes of it. -/
theorem commandDone_of_hear {i : Interface} {event : Event} (hears : i.worker.duties = [.hear event])
    (succeeded : Bool) :
    (i.commandDone succeeded).vif = i.vif ∧ (i.commandDone succeeded).address = i.address ∧
      (i.commandDone succeeded).negotiation =
        (if succeeded then Interface.commit event i.negotiation else i.negotiation) ∧
      (i.commandDone succeeded).worker.duties = [] ∧
      (i.commandDone succeeded).worker.effort ≤ i.worker.effort := by
  obtain ⟨-, pending, queue, stage⟩ := Interface.work_of_hear hears
  rw [Worker.duties, stage] at hears
  obtain ⟨noPending, noQueue, noInbox⟩ : pending = [] ∧ queue = [] ∧
      i.worker.inbox.filterMap Work.duty? = [] := by
    simpa [Worker.Stage.duties] using hears
  subst noPending noQueue
  cases succeeded <;>
    simp [Interface.commandDone, stage, Interface.atStage, Worker.duties, Worker.Stage.duties,
      noInbox, Worker.effort, Worker.Stage.effort]

/-- The worker gets the confirm that has come. -/
theorem step?_of_answered {event : Event} {status : UInt32} (draws : n.Draws now marked x)
    (answers : x.activity = .answered event status) (due : Nat) :
    ∃ m y, n.step? now .worker = some m ∧ x.next? due = some (y, none) ∧
      m.Draws now marked y ∧ m.interface.worker.effort ≤ n.interface.worker.effort := by
  have held := draws.holds_iff.mpr (.inr (.inr ⟨event, status, answers⟩))
  have shown := draws.shown
  have hears := draws.duties
  rw [answers] at shown hears
  obtain ⟨empty, wait, answered⟩ := shown
  obtain ⟨r, bus, stepped, sameStatus, prompt, idle, queue, installed⟩ := answered.step? draws.prompt
  let succeeded := ((Host.Channel.outcomeOf r).map fun _ => ()).isOk
  have ended : succeeded = decide (status = 0) :=
    (Host.Bus.isOk_outcomeOf r).trans (by rw [sameStatus])
  obtain ⟨vif, address, negotiation, duties, effort⟩ := commandDone_of_hear hears succeeded
  refine ⟨{ n with bus, interface := n.interface.commandDone succeeded }, _, ?_,
    by rw [Sketch.next?, answers], ?_, effort⟩
  · rw [Node.step?, if_pos held, stepped]
    rfl
  · exact
      { vif := vif.trans draws.vif
        address := address.trans draws.address
        negotiation := by
          rw [negotiation, draws.negotiation, ended]
          by_cases zero : status = 0 <;> simp [zero]
        duties
        prompt
        shown := ⟨idle, queue.trans empty⟩
        installed := installed.trans draws.installed
        alarms := draws.alarms
        marks := fun _ => trivial }

/-- Nothing happens on the channel otherwise. -/
theorem step?_eq_none (draws : n.Draws now marked x)
    (still : ∀ event status, x.activity ≠ .asking event ∧ x.activity ≠ .answered event status) :
    n.step? now .worker = none := by
  unfold Node.step?
  split
  case isFalse => rfl
  case isTrue held =>
    rcases draws.holds_iff.mp held with ⟨event, asks⟩ | ⟨event, due, status, awaits⟩ | ⟨event, status, answers⟩
    · exact absurd asks (still event 0).1
    · have shown := draws.shown
      rw [awaits] at shown
      obtain ⟨-, wait, awaited⟩ := shown
      rw [awaited.step?]
      rfl
    · exact absurd answers (still event status).2

/-- A step on the channel leads where the sketch leads. -/
theorem step? (draws : n.Draws now marked x) (stepped : n.step? now .worker = some m) :
    ∃ due y, now ≤ due ∧ x.next? due = some (y, none) ∧ m.Draws now marked y ∧
      m.interface.worker.effort ≤ n.interface.worker.effort := by
  cases activity : x.activity with
  | asking event =>
      obtain ⟨after, due, y, found, later, next, drawn, same⟩ := draws.step?_of_asking activity
      obtain rfl := Option.some.inj (found.symm.trans stepped)
      exact ⟨due, y, later, next, drawn, Nat.le_of_eq (by rw [same])⟩
  | answered event status =>
      obtain ⟨after, y, found, next, drawn, effort⟩ := draws.step?_of_answered activity now
      obtain rfl := Option.some.inj (found.symm.trans stepped)
      exact ⟨now, y, Nat.le_refl now, next, drawn, effort⟩
  | resting | facing | begun | awaiting =>
      rw [draws.step?_eq_none (by simp [activity])] at stepped
      cases stepped

/-! ### Steps of the worker in its own work -/

end Node.Draws

/-- The ways in which a node's worker goes on in its own work, and what it asks of the outside. The
outside's answer to a frame, or the wait for the chip, is part of the step. -/
inductive Node.Advanced (now : Nat) (marked : Bool) (x : Sketch) (n : Node) (i : Interface) :
    Option Interface.Request → Prop where
  | idled (draws : ({ n with interface := i } : Node).Draws now marked x)
      (effort : i.worker.effort < n.interface.worker.effort) : Advanced now marked x n i none
  | done {y : Sketch} (leads : ∀ due, x.next? due = some (y, none))
      (draws : ({ n with interface := i } : Node).Draws now marked y)
      (effort : i.worker.effort ≤ n.interface.worker.effort + 1) : Advanced now marked x n i none
  | asked {y : Sketch} {command : Command} (leads : ∀ due, x.next? due = some (y, none))
      (draws : (({ n with interface := i } : Node).enqueue .worker command).Draws now marked y)
      (effort : i.worker.effort ≤ n.interface.worker.effort + 1) :
      Advanced now marked x n i (some (.command command))
  | sent {y : Sketch} {frame : ActionFrame} (leads : ∀ due, x.next? due = some (y, some frame))
      (draws : ({ n with interface := i.frameSent } : Node).Draws now marked y)
      (effort : i.frameSent.worker.effort ≤ n.interface.worker.effort + 1) :
      Advanced now marked x n i (some (.transmit frame))

namespace Node.Draws

theorem duties_ofTasks {tasks : List Task} (alone : tasks.length ≤ 1) :
    (Activity.ofTasks tasks).duties = tasks.map .task := by
  match tasks with
  | [] => rfl
  | [_] => rfl
  | _ :: _ :: _ => simp at alone

theorem duties_ofEvents {events : List Event} (alone : events.length ≤ 1) :
    (Activity.ofEvents events).duties = events.map .carryOut := by
  match events with
  | [] => rfl
  | [_] => rfl
  | _ :: _ :: _ => simp at alone

/-- A node whose worker goes on with what an operation deferred is as its sketch is after the
operation. -/
theorem after {i : Interface} {result : List Task × Negotiation} (draws : n.Draws now marked x)
    {task : Task} (faces : x.activity = .facing task) (vif : i.vif = n.interface.vif)
    (address : i.address = n.interface.address) (negotiation : i.negotiation = result.2)
    (duties : i.worker.duties = (Activity.ofTasks result.1).duties) :
    ({ n with interface := i } : Node).Draws now marked (x.after result) where
  vif := vif.trans draws.vif
  address := address.trans draws.address
  negotiation := negotiation
  duties := duties
  prompt := draws.prompt
  shown := by
    have shown := draws.shown
    rw [faces] at shown
    obtain ⟨tasks, m⟩ := result
    cases tasks <;> exact shown
  installed := draws.installed
  alarms := draws.alarms
  marks isMarked := by
    have marks := draws.marks isMarked
    rw [faces] at marks
    exact marks.elim

/-- A worker goes on with an operation, in place of the task that it does. -/
theorem continued {task : Task} (operation : Negotiation → Negotiation)
    (draws : n.Draws now marked x) (faces : x.activity = .facing task)
    (noInbox : n.interface.worker.inbox.filterMap Work.duty? = [])
    (alone : (operation x.negotiation).tasks.length ≤ 1) :
    ({ n with interface := n.interface.continueWith operation [] } : Node).Draws now marked
      (x.after (operation x.negotiation).takeTasks) := by
  rw [← draws.negotiation] at alone ⊢
  refine draws.after faces rfl rfl rfl ?_
  show (operation n.interface.negotiation).tasks.map Duty.task ++
    n.interface.worker.inbox.filterMap Work.duty? =
      (Activity.ofTasks (operation n.interface.negotiation).tasks).duties
  rw [noInbox, List.append_nil, duties_ofTasks alone]

/-- A worker takes up the events that are to be carried out, of which there is at most one. -/
theorem applied (draws : n.Draws now marked x) (faces : x.activity = .facing .applyCommands)
    (noInbox : n.interface.worker.inbox.filterMap Work.duty? = [])
    (alone : x.negotiation.own.commands.toList.length ≤ 1) :
    ({ n with interface := (n.interface.perform .applyCommands []).1 } : Node).Draws now marked
      { x with
        negotiation := x.negotiation.takeCommands.2
        activity := .ofEvents x.negotiation.takeCommands.1 } := by
  have shown := draws.shown
  rw [faces] at shown
  have same := draws.negotiation
  refine
    { vif := draws.vif
      address := draws.address
      negotiation := congrArg (fun m => m.takeCommands.2) same
      duties := ?_
      prompt := draws.prompt
      shown := ?_
      installed := draws.installed
      alarms := draws.alarms
      marks := fun isMarked => ?_ }
  · have pending : (n.interface.perform .applyCommands []).1.worker.duties =
        x.negotiation.own.commands.toList.map .carryOut := by
      show (n.interface.negotiation.own.commands.toList.map Duty.carryOut ++ []) ++
        n.interface.worker.inbox.filterMap Work.duty? = _
      rw [noInbox, List.append_nil, List.append_nil, same]
    exact pending.trans (duties_ofEvents alone).symm
  · show (Activity.ofEvents x.negotiation.own.commands.toList).Shows x.vif now n.bus
    cases x.negotiation.own.commands.toList <;> exact shown
  · have marks := draws.marks isMarked
    rw [faces] at marks
    exact marks.elim

/-- The radio gets the frame of an answer or a request. -/
theorem sentSetup {destination : MacAddress} {token flow : UInt8} {element : List UInt8}
    (draws : n.Draws now marked x)
    (faces : x.activity = .facing (.sendSetup destination token element flow))
    (noInbox : n.interface.worker.inbox.filterMap Work.duty? = []) :
    ({ n with interface := n.interface.atStage (.running []) } : Node).Draws now marked
      { x with activity := .resting } where
  vif := draws.vif
  address := draws.address
  negotiation := draws.negotiation
  duties := noInbox
  prompt := draws.prompt
  shown := by
    have shown := draws.shown
    rw [faces] at shown
    exact shown
  installed := draws.installed
  alarms := draws.alarms
  marks _ := trivial

/-- A worker does its task. -/
theorem perform {task : Task} (draws : n.Draws now marked x) (able : x.Able)
    (faces : x.activity = .facing task) (stage : n.interface.worker.stage = .running [task])
    (noInbox : n.interface.worker.inbox.filterMap Work.duty? = []) :
    n.Advanced now marked x (n.interface.perform task []).1 (n.interface.perform task []).2 := by
  have effort : n.interface.worker.effort = 1 + 2 * n.interface.worker.inbox.length := by
    rw [Worker.effort, stage]
    rfl
  have link : n.interface.negotiation.link = x.negotiation.link :=
    congrArg Negotiation.link draws.negotiation
  have next (due : Nat) : x.next? due = Sketch.next? due { x with activity := .facing task } := by
    rw [← faces]
  unfold Sketch.Able at able
  rw [faces] at able
  cases task with
  | handleEvents source =>
      refine .done next (draws.continued (·.handleEvents source) faces noInbox able) ?_
      show 1 + 2 * n.interface.worker.inbox.length ≤ _
      omega
  | applyCommands =>
      refine .done next (draws.applied faces noInbox able) ?_
      show 2 + 2 * n.interface.worker.inbox.length ≤ _
      omega
  | sendSetup destination token element flow =>
      have known : n.interface.negotiation.link.knows destination = true := link ▸ able
      simp only [Interface.perform, Interface.sendFrame, known, if_true]
      refine .sent next (draws.sentSetup faces noInbox) ?_
      show 1 + 2 * n.interface.worker.inbox.length ≤ _
      omega
  | sendTeardown destination flow =>
      have known : n.interface.negotiation.link.knows destination = true := link ▸ able.1
      simp only [Interface.perform, Interface.sendFrame, known, if_true]
      refine .sent next
        (draws.continued (·.teardownSent destination flow) faces noInbox able.2) ?_
      show 1 + 2 * n.interface.worker.inbox.length ≤ _
      omega
  | retryEvents => exact able.elim

/-- A worker gives the chip the command of an event. -/
theorem asks {event : Event} (draws : n.Draws now marked x) (begins : x.activity = .begun event)
    (noInbox : n.interface.worker.inbox.filterMap Work.duty? = []) :
    (({ n with interface := n.interface.atStage (.commanding event [] []) } : Node).enqueue .worker
        (Interface.commandFor n.interface.vif event)).Draws now marked
      { x with activity := .asking event } := by
  have shown := draws.shown
  rw [begins] at shown
  obtain ⟨idle, empty⟩ := shown
  obtain ⟨fits, asked⟩ := Interface.fits_commandFor n.interface.vif event
  exact
    { vif := draws.vif
      address := draws.address
      negotiation := draws.negotiation
      duties := by
        show Duty.hear event :: ([] ++ n.interface.worker.inbox.filterMap Work.duty?) = _
        rw [noInbox]
        rfl
      prompt := draws.prompt.enqueue fits asked .worker
      shown := by
        let command := Interface.commandFor n.interface.vif event
        show Activity.Shows x.vif now (n.bus.enqueue .worker command none) (.asking event)
        rw [← draws.vif]
        refine ⟨⟨idle.free, idle.silent⟩,
          Host.Channel.waitFor n.bus.channel.settings command none, ?_⟩
        simp [Host.Bus.enqueue, Host.Channel.submit, empty, command]
      installed := draws.installed
      alarms := draws.alarms
      marks := fun isMarked => by
        have marks := draws.marks isMarked
        rw [begins] at marks
        exact marks.elim }

/-- A step of the worker in its own work leads where the sketch leads, or idles. -/
theorem work {i : Interface} {request : Option Interface.Request} (draws : n.Draws now marked x)
    (able : x.Able) (found : n.interface.work = some (i, request)) :
    n.Advanced now marked x i request := by
  have duties := draws.duties
  have marks := draws.marks
  cases activity : x.activity with
  | resting =>
      rw [activity] at duties
      obtain ⟨rfl, idled⟩ := Interface.work_of_rest duties found
      exact .idled (draws.idled idled fun _ => activity) idled.effort
  | facing task =>
      rw [activity] at duties marks
      rcases Interface.work_of_task duties found with ⟨rfl, idled⟩ | ⟨stage, noInbox, done⟩
      · exact .idled (draws.idled idled fun isMarked => (marks isMarked).elim) idled.effort
      · have advanced := draws.perform able activity stage noInbox
        rwa [done] at advanced
  | begun event =>
      rw [activity] at duties marks
      rcases Interface.work_of_carryOut duties found with ⟨rfl, idled⟩ | ⟨stage, noInbox, rfl, rfl⟩
      · exact .idled (draws.idled idled fun isMarked => (marks isMarked).elim) idled.effort
      · refine .asked (fun due => by rw [Sketch.next?, activity]) (draws.asks activity noInbox) ?_
        rw [Worker.effort, Worker.effort, stage]
        exact Nat.le_of_eq (Nat.add_right_comm 2 _ 1).symm
  | asking event | awaiting event | answered event =>
      rw [activity] at duties
      rw [(Interface.work_of_hear duties).1] at found
      cases found

/-! ### What comes in -/

/-- The worker gets what an operation from outside defers. -/
theorem operated {α : Type} (operation : Negotiation → α × Negotiation)
    (draws : n.Draws now false x) (rests : x.activity = .resting)
    (alone : (operation x.negotiation).2.tasks.length ≤ 1) :
    ({ n with interface := (n.interface.operate operation).2 } : Node).Draws now false
        (x.after (operation x.negotiation).2.takeTasks) ∧
      (n.interface.operate operation).2.worker.effort ≤ n.interface.worker.effort + 2 := by
  have duties := draws.duties
  have shown := draws.shown
  rw [rests] at duties shown
  rw [← draws.negotiation] at alone ⊢
  have goesOn : n.interface.worker.stage ≠ .stopped :=
    Worker.goesOn_of_duties (by rw [duties]; exact List.not_mem_nil)
  generalize same : (operation n.interface.negotiation).2.tasks = tasks at alone
  have pushed : (n.interface.worker.push (tasks.map .task)).duties =
      (Activity.ofTasks tasks).duties := by
    rw [Worker.duties_push goesOn, duties, duties_ofTasks alone, Worker.filterMap_duty?]
    rfl
  have left : (operation n.interface.negotiation).2.takeTasks.1 = tasks := same
  constructor
  · exact
      { vif := draws.vif
        address := draws.address
        negotiation := rfl
        duties := by
          rw [← left] at pushed
          exact pushed
        prompt := draws.prompt
        shown := by
          show (Activity.ofTasks (operation n.interface.negotiation).2.tasks).Shows x.vif now n.bus
          rw [same]
          cases tasks <;> exact shown
        installed := draws.installed
        alarms := draws.alarms
        marks := fun isMarked => by cases isMarked }
  · have bound := Worker.effort_push (w := n.interface.worker) (tasks.map .task)
    rw [List.length_map] at bound
    show (n.interface.worker.push ((operation n.interface.negotiation).2.tasks.map .task)).effort ≤ _
    rw [same]
    omega

/-- A frame comes in for a node that rests. -/
theorem receive {source : MacAddress} {frame : ActionFrame} (draws : n.Draws now false x)
    (rests : x.activity = .resting) (full : frame.payload ≠ [])
    (alone : (Sketch.taken source frame x.negotiation).tasks.length ≤ 1) :
    ({ n with interface := World.hand source frame n.interface } : Node).Draws now false
        (x.receive source frame) ∧
      (World.hand source frame n.interface).worker.effort ≤ n.interface.worker.effort + 2 := by
  unfold World.hand Sketch.receive
  unfold Sketch.taken at alone ⊢
  cases setup : frame.setup with
  | true =>
      rw [setup, if_pos rfl] at alone
      rw [if_pos rfl, if_pos rfl]
      exact draws.operated (·.receiveSetup source frame.token frame.payload) rests alone
  | false =>
      rw [setup, if_neg Bool.false_ne_true] at alone
      rw [if_neg Bool.false_ne_true, if_neg Bool.false_ne_true]
      cases payload : frame.payload with
      | nil => exact absurd payload full
      | cons flow rest =>
          rw [payload] at alone
          exact draws.operated (·.receiveTeardown source flow) rests alone

/-- What is due by now comes in from the chip. -/
theorem deliver (draws : n.Draws now marked x) : (n.deliver now).Draws now marked (x.delivered now) ∧
    (n.deliver now).interface = n.interface := by
  have rung := deliver_of_noAlarms draws.alarms now
  have shown := draws.shown
  have still (silent : n.bus.deliver now = n.bus) : (n.deliver now).Draws now marked x := by
    rw [rung, silent]
    exact draws
  rw [rung] at still ⊢
  refine ⟨?_, rfl⟩
  unfold Sketch.delivered
  cases activity : x.activity with
  | resting | facing | begun | asking =>
      rw [activity] at shown
      exact still (Host.Bus.deliver_of_silent shown.1.silent)
  | answered =>
      rw [activity] at shown
      obtain ⟨-, wait, answered⟩ := shown
      exact still (Host.Bus.deliver_of_silent answered.silent)
  | awaiting event due status =>
      rw [activity] at shown
      obtain ⟨empty, wait, awaited⟩ := shown
      dsimp only
      split
      case isTrue arrived =>
        obtain ⟨answered, prompt, queue, installed⟩ := awaited.deliver draws.prompt arrived
        have duties := draws.duties
        have marks := draws.marks
        rw [activity] at duties marks
        exact
          { vif := draws.vif
            address := draws.address
            negotiation := draws.negotiation
            duties
            prompt
            shown := ⟨queue.trans empty, wait, answered⟩
            installed := installed.trans draws.installed
            alarms := draws.alarms
            marks }
      case isFalse early => exact still (awaited.deliver_early (Nat.lt_of_not_le early))

/-- The clock may go on until a confirm that is waited for arrives. -/
theorem later {time : Nat} (draws : n.Draws now marked x)
    (within : ∀ due, x.timer? = some due → time ≤ due) : n.Draws time marked x := by
  refine { draws with shown := ?_ }
  have shown := draws.shown
  unfold Sketch.timer? at within
  cases activity : x.activity with
  | resting | facing | begun | asking | answered =>
      rw [activity] at shown
      exact shown
  | awaiting event due status =>
      rw [activity] at shown within
      obtain ⟨empty, wait, awaited⟩ := shown
      exact ⟨empty, wait, awaited.later (within due rfl)⟩

/-- A worker that cannot go on rests or waits for a confirm on its way. -/
theorem still_of_canWork (draws : n.Draws now marked x) (still : n.canWork now = false) :
    x.activity = .resting ∧ n.interface.worker.effort = 0 ∨
      ∃ event due status, x.activity = .awaiting event due status := by
  obtain ⟨noWork, noStep⟩ := Bool.or_eq_false_iff.mp still
  have duties := draws.duties
  have canStep (m : Node) (found : n.step? now .worker = some m) : n.canStep now .worker = true := by
    rw [← n.isSome_step?, found]
    rfl
  cases activity : x.activity with
  | resting =>
      rw [activity] at duties
      exact .inl ⟨rfl, Interface.effort_of_still duties (by simpa using noWork)⟩
  | facing task =>
      rw [activity] at duties
      rw [Interface.isSome_work duties (.inl ⟨task, rfl⟩)] at noWork
      cases noWork
  | begun event =>
      rw [activity] at duties
      rw [Interface.isSome_work duties (.inr ⟨event, rfl⟩)] at noWork
      cases noWork
  | asking event =>
      obtain ⟨m, due, y, found, -⟩ := draws.step?_of_asking activity
      rw [canStep m found] at noStep
      cases noStep
  | awaiting event due status => exact .inr ⟨event, due, status, rfl⟩
  | answered event status =>
      obtain ⟨m, y, found, -⟩ := draws.step?_of_answered activity now
      rw [canStep m found] at noStep
      cases noStep

/-- The next timer of a node that cannot go on is the confirm that it waits for. -/
theorem nextTimer? (draws : n.Draws now marked x) (still : n.canWork now = false) :
    n.nextTimer? = x.timer? := by
  have shown := draws.shown
  have held := draws.holds_iff
  unfold Node.nextTimer? Node.deadline? Sketch.timer?
  rcases draws.still_of_canWork still with ⟨activity, -⟩ | ⟨event, due, status, activity⟩
  · rw [activity] at shown held
    have free : n.holds .worker = false := by simpa using held
    rw [activity, Host.Bus.nextArrival?_of_silent shown.1.silent, free, draws.alarms]
    rfl
  · rw [activity] at shown held
    have holds : n.holds .worker = true := by simpa using held
    obtain ⟨-, wait, awaited⟩ := shown
    obtain ⟨deadline, deadlined, early⟩ := awaited.deadline?
    rw [activity, awaited.nextArrival?, if_pos holds, deadlined, draws.alarms]
    show some (min due deadline) = some due
    rw [Nat.min_eq_left (Nat.le_of_lt early)]

/-- The worker was not stopped. -/
theorem goesOn (draws : n.Draws now marked x) : n.interface.worker.stage ≠ .stopped := by
  apply Worker.goesOn_of_duties
  rw [draws.duties]
  cases x.activity <;> simp [Activity.duties]

/-- Someone begins to wait for the worker, and waits behind what the worker does if it may be marked. -/
theorem requestFlush (draws : n.Draws now marked x) (mark : Bool)
    (behind : mark = true → marked = true ∨ x.activity = .resting ∨
      ∃ event due status, x.activity = .awaiting event due status) :
    ({ n with interface := n.interface.requestFlush } : Node).Draws now mark x ∧
      n.interface.requestFlush.worker.effort ≤ n.interface.worker.effort + 2 := by
  have goesOn := draws.goesOn
  have inbox : n.interface.requestFlush.worker.inbox = n.interface.worker.inbox ++ [.flush] := by
    show (n.interface.worker.push [.flush]).inbox = _
    unfold Worker.push
    split
    case h_1 stopped => exact absurd stopped goesOn
    case h_2 => rfl
  refine ⟨?_, Worker.effort_push [.flush]⟩
  exact
    { vif := draws.vif
      address := draws.address
      negotiation := draws.negotiation
      duties := (Worker.duties_push goesOn).trans ((List.append_nil _).trans draws.duties)
      prompt := draws.prompt
      shown := draws.shown
      installed := draws.installed
      alarms := draws.alarms
      marks := fun isMarked => by
        show x.activity.Marked n.interface.requestFlush.worker.inbox
        rw [inbox]
        rcases behind isMarked with before | rests | ⟨event, due, status, awaits⟩
        · have marks := draws.marks before
          revert marks
          cases x.activity <;> simp [Activity.Marked]
        · rw [rests]
          trivial
        · rw [awaits]
          exact List.mem_append_right _ (List.mem_singleton_self _) }

end Node.Draws

end TargetWakeTime.Simulation
