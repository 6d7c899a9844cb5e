import TargetWakeTime.Host.Command
import TargetWakeTime.Negotiation.Handling
import TargetWakeTime.Negotiation.Report

/-!
Contract: one TWT interface, which is a negotiation state and a worker that does its deferred work.

Owns:
- the interface and its worker's inbox and stage;
- operations on the negotiation state, which hand their deferred work to the worker at once, so that
  between operations no task is left behind in the state.

A worker that was stopped takes no more work.
-/

namespace TargetWakeTime

/-- A frame for the radio: an element, or a flow octet in a teardown. -/
structure ActionFrame where
  destination : MacAddress
  payload : List UInt8
  token : UInt8
  setup : Bool
deriving DecidableEq, Repr

inductive Work where
  | task (task : Task)
  /-- Tells whoever waits for it that all work before it is done. -/
  | flush
  | stop
deriving DecidableEq, Repr

namespace Worker

/-- What a worker is at. A queue holds tasks that follow from the work at hand. -/
inductive Stage where
  | idle
  | running (queue : List Task)
  /-- Has events to carry out on the chip, one after the other. -/
  | applying (pending : List Event) (queue : List Task)
  /-- Waits until the radio has sent the frame of a task. -/
  | transmitting (task : Task) (queue : List Task)
  /-- Waits for the chip's answer to what an event needs. -/
  | commanding (event : Event) (pending : List Event) (queue : List Task)
  | stopped
deriving DecidableEq, Repr

end Worker

structure Worker where
  inbox : List Work := []
  stage : Worker.Stage := .idle
deriving DecidableEq, Repr

namespace Worker

/-- Puts work into the inbox, unless the worker was stopped. -/
def push (work : List Work) (w : Worker) : Worker :=
  match w.stage with
  | .stopped => w
  | _ => { w with inbox := w.inbox ++ work }

end Worker

structure Interface where
  vif : UInt16
  address : MacAddress
  negotiation : Negotiation
  worker : Worker := {}
deriving DecidableEq, Repr

namespace Interface

def new (vif : UInt16) (address : MacAddress) (settings : Negotiation.Settings) : Interface where
  vif := vif
  address := address
  negotiation := .new settings

/-- Runs an operation on the negotiation state and hands the work it leaves to the worker. -/
def operate {α : Type} (operation : Negotiation → α × Negotiation) (i : Interface) :
    α × Interface :=
  let (result, negotiation) := operation i.negotiation
  let (tasks, negotiation) := negotiation.takeTasks
  (result, { i with negotiation, worker := i.worker.push (tasks.map .task) })

def receiveSetup (source : MacAddress) (token : UInt8) (element : List UInt8) (i : Interface) :
    Except Error Unit × Interface :=
  i.operate (·.receiveSetup source token element)

def receiveTeardown (source : MacAddress) (flow : UInt8) (i : Interface) :
    Except Error Unit × Interface :=
  i.operate (·.receiveTeardown source flow)

/-- Handles the element of an association request and yields the element for the response. -/
def associationRequest (source : MacAddress) (element : List UInt8) (i : Interface) :
    Except Error (Option (List UInt8)) × Interface :=
  i.operate fun n =>
    match n.receiveElement source element with
    | (.error error, n) => (.error error, n)
    | (.ok (), n) =>
        let (response, n) := (n.handleEvents (some source)).takeResponseElement source
        (.ok response, n)

/-- Handles the element of an association response. -/
def associationResponse (source : MacAddress) (element : List UInt8) (i : Interface) :
    Except Error Unit × Interface :=
  i.operate fun n =>
    match n.receiveElement source element with
    | (.error error, n) => (.error error, n)
    | (.ok (), n) => (.ok (), n.handleEvents (some source))

def associationRequestElement (i : Interface) : Option (List UInt8) × Interface :=
  i.operate (·.associationRequestElement)

def authorized (i : Interface) : Interface :=
  (i.operate fun n => ((), n.authorized)).2

def removeStation (peer : MacAddress) (i : Interface) : Except Error Unit × Interface :=
  i.operate (·.removeStation peer)

def purgeEvents (source : Option MacAddress) (i : Interface) : Nat × Interface :=
  i.operate (·.purgeEvents source)

def withLink (f : Association → Association) (i : Interface) : Interface :=
  { i with negotiation := { i.negotiation with link := f i.negotiation.link } }

def scheduleReport (i : Interface) : String := i.negotiation.scheduleReport

def agreementReport (i : Interface) : String := i.negotiation.agreementReport i.address

/-- Asks the worker to tell when it has done everything up to here. -/
def requestFlush (i : Interface) : Interface := { i with worker := i.worker.push [.flush] }

/-- Whether no one waits for the worker any more. -/
def isFlushed (i : Interface) : Bool := !i.worker.inbox.contains .flush

/-- Asks the worker to stop after everything up to here. -/
def requestStop (i : Interface) : Interface := { i with worker := i.worker.push [.stop] }

def isStopped (i : Interface) : Bool := i.worker.stage == .stopped

def clear (i : Interface) : Interface := { i with negotiation := i.negotiation.clear }

end Interface

end TargetWakeTime
