import TargetWakeTime.Interface.Basic

/-!
Contract: the steps of an interface's worker.

Owns:
- `work`, the next step of a worker that waits for nothing, and what that step asks of the outside;
- `frameSent` and `commandDone`, which take the outside's answer and let the worker go on.

A task and everything it leads to is done before the next one in the inbox. Frames go to known peers
only. A teardown frame that is lost counts as sent. Commands to the chip that fail are dropped, and
what the chip runs is noted only when it said so.
-/

namespace TargetWakeTime.Interface

/-- What a worker's step asks of the outside. The worker waits for the answer to the first two. -/
inductive Request where
  | transmit (frame : ActionFrame)
  | command (command : Host.Command)
  /-- Handle events again after this many milliseconds. -/
  | alarm (delay : Nat)
deriving DecidableEq, Repr

def atStage (stage : Worker.Stage) (i : Interface) : Interface :=
  { i with worker := { i.worker with stage } }

/-- Runs an operation in the course of a task; what it defers follows the tasks at hand. -/
def continueWith (operation : Negotiation → Negotiation) (queue : List Task) (i : Interface) :
    Interface :=
  let (tasks, negotiation) := (operation i.negotiation).takeTasks
  { i with negotiation }.atStage (.running (queue ++ tasks))

/-- Goes on after the frame of a task, whether it was sent or not. -/
def afterFrame (task : Task) (queue : List Task) (i : Interface) : Interface :=
  match task with
  | .sendTeardown destination flow => i.continueWith (·.teardownSent destination flow) queue
  | _ => i.atStage (.running queue)

/-- Hands the frame of a task to the radio, if its destination is a known peer. -/
def sendFrame (task : Task) (frame : ActionFrame) (queue : List Task) (i : Interface) :
    Interface × Option Request :=
  if i.negotiation.link.knows frame.destination then
    (i.atStage (.transmitting task queue), some (.transmit frame))
  else (i.afterFrame task queue, none)

/-- Does one task, as far as it goes without the outside. -/
def perform (task : Task) (queue : List Task) (i : Interface) : Interface × Option Request :=
  match task with
  | .sendSetup destination token element _ =>
      i.sendFrame task { destination, payload := element, token, setup := true } queue
  | .sendTeardown destination flow =>
      i.sendFrame task { destination, payload := [flow], token := 0, setup := false } queue
  | .handleEvents source => (i.continueWith (·.handleEvents source) queue, none)
  | .applyCommands =>
      let (pending, negotiation) := i.negotiation.takeCommands
      ({ i with negotiation }.atStage (.applying pending queue), none)
  | .retryEvents =>
      (i.atStage (.running queue), some (.alarm i.negotiation.settings.retryBackoff))

/-- The command that carries out an event: an installation for an agreement, a removal for a
teardown. -/
def commandFor (vif : UInt16) (event : Event) : Host.Command :=
  match event.agreement? with
  | some agreement => .install vif agreement.flow agreement.chipBlob
  | none => .remove vif event.flow

/-- The worker's next step, if it has something to do and waits for nothing. -/
def work (i : Interface) : Option (Interface × Option Request) :=
  match i.worker.stage with
  | .transmitting .. | .commanding .. | .stopped => none
  | .running (task :: queue) => some (i.perform task queue)
  | .running [] => some (i.atStage .idle, none)
  | .applying (event :: pending) queue =>
      some (i.atStage (.commanding event pending queue),
        some (.command (commandFor i.vif event)))
  | .applying [] queue => some (i.atStage (.running queue), none)
  | .idle =>
      match i.worker.inbox with
      | [] => none
      | .task task :: inbox => some ({ i with worker := ⟨inbox, .running [task]⟩ }, none)
      | .flush :: inbox => some ({ i with worker := ⟨inbox, .idle⟩ }, none)
      | .stop :: _ => some ({ i with worker := ⟨[], .stopped⟩ }, none)

def frameSent (i : Interface) : Interface :=
  match i.worker.stage with
  | .transmitting task queue => i.afterFrame task queue
  | _ => i

/-- Notes on the host what the chip carried out. -/
def commit (event : Event) (n : Negotiation) : Negotiation :=
  match event.body with
  | .setup .. => n.commitInstall event.flow
  | .teardown => n.commitUninstall event.flow

/-- The chip answered a command of the worker; `true` means that it carried the command out. -/
def commandDone (succeeded : Bool) (i : Interface) : Interface :=
  match i.worker.stage with
  | .commanding event pending queue =>
      let i := i.atStage (.applying pending queue)
      if succeeded then { i with negotiation := commit event i.negotiation } else i
  | _ => i

end TargetWakeTime.Interface
