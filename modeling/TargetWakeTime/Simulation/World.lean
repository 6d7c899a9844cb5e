import TargetWakeTime.Simulation.Node

/-!
Contract: nodes on a common clock and a common radio.

Owns:
- the clock, which stands still while anything can be done and then jumps to the next timer;
- the order in which workers run: each runs until it has to wait, the one that was woken first runs
  first;
- what comes first at one time: an alarm of whoever acts on the world from outside, then deadlines
  of workers, then what comes in;
- waiting: whoever acts on the world from outside goes on only when nothing can move without time
  passing, or when its alarm goes off;
- what becomes of action frames: on the air they reach the node of their destination at once, a
  recorder keeps them instead;
- local operations, which act on the world from outside in this sense.

Operations on an index without a node change nothing and succeed.

Does not own what a node does with what reaches it.
-/

namespace TargetWakeTime.Simulation

/-- A frame that a recorder got, and whether it refused it. -/
structure RecordedFrame where
  frame : ActionFrame
  failed : Bool
deriving DecidableEq, Repr

/-- What becomes of action frames. -/
inductive Radio where
  /-- The node of the destination gets them. -/
  | air
  /-- They are kept; the next `failing` ones are refused. -/
  | recorder (failing : Nat) (frames : List RecordedFrame)
deriving DecidableEq, Repr

structure World where
  now : Nat := 0
  nodes : List Node
  radio : Radio
  /-- Nodes whose workers can go on, in the order in which they were woken. -/
  ready : List Nat := []

namespace World

def node? (index : Nat) (w : World) : Option Node := w.nodes[index]?

/-- Puts a node in place. Its worker, if it can go on, gets its turn behind those that already wait
for theirs. -/
def putNode (index : Nat) (node : Node) (w : World) : World :=
  { w with
    nodes := w.nodes.set index node
    ready :=
      if node.canWork w.now && !w.ready.contains index then w.ready ++ [index] else w.ready }

def onNode {α : Type} (index : Nat) (f : Node → α × Node) (w : World) : Option (α × World) :=
  (w.node? index).map fun node =>
    let (result, node) := f node
    (result, w.putNode index node)

def modifyNode (index : Nat) (f : Node → Node) (w : World) : World :=
  match w.node? index with
  | some node => w.putNode index (f node)
  | none => w

def onInterface {α : Type} (index : Nat) (f : Interface → α × Interface) (w : World) :
    Option (α × World) :=
  w.onNode index fun node =>
    let (result, interface) := f node.interface
    (result, { node with interface })

def modifyInterface (index : Nat) (f : Interface → Interface) (w : World) : World :=
  w.modifyNode index fun node => { node with interface := f node.interface }

/-- The node that gets frames for an address: the last one to join the air with it. -/
def findNode? (address : MacAddress) (w : World) : Option Nat :=
  let joined := w.nodes.zipIdx.filter (·.1.interface.address == address)
  joined.getLast?.map (·.2)

/-- A frame reaches a node; what the node makes of it does not concern the sender. -/
def hand (source : MacAddress) (frame : ActionFrame) (i : Interface) : Interface :=
  if frame.setup then (i.receiveSetup source frame.token frame.payload).2
  else
    match frame.payload with
    | flow :: _ => (i.receiveTeardown source flow).2
    | [] => i

def transmit (source : MacAddress) (frame : ActionFrame) (w : World) : World :=
  match w.radio with
  | .recorder failing frames =>
      { w with
        radio := .recorder (failing - 1) (frames ++ [{ frame, failed := decide (0 < failing) }]) }
  | .air =>
      match w.findNode? frame.destination with
      | some index => w.modifyInterface index (hand source frame)
      | none => w

/-- What a worker's step asks of the outside is done, and the worker told when it waits for that. -/
def serve (index : Nat) (source : MacAddress) (request : Interface.Request) (w : World) : World :=
  match request with
  | .alarm delay =>
      w.modifyNode index fun node => { node with alarms := node.alarms ++ [w.now + delay] }
  | .command command => w.modifyNode index (·.enqueue .worker command)
  | .transmit frame => (w.transmit source frame).modifyInterface index (·.frameSent)

/-- One step of a node's worker, on the channel to the chip or else in its own work. -/
def step (index : Nat) (w : World) : World :=
  match w.node? index with
  | none => w
  | some node =>
      match node.step? w.now .worker with
      | some node => w.putNode index node
      | none =>
          match node.interface.work with
          | none => w
          | some (interface, request) =>
              let w := w.putNode index { node with interface }
              match request with
              | none => w
              | some request => w.serve index interface.address request

/-- The worker whose turn it is makes a step; it keeps its turn until it has to wait. -/
def turn (index : Nat) (rest : List Nat) (w : World) : World :=
  let w := { w with ready := rest }.step index
  if w.ready.contains index then { w with ready := index :: w.ready.filter (· ≠ index) } else w

def nextTimer? (w : World) : Option Nat :=
  (w.nodes.filterMap (·.nextTimer?)).min?

def modifyNodes (f : Node → Node) (w : World) : World :=
  (List.range w.nodes.length).foldl (fun w index => w.modifyNode index f) w

/-- What is due by now comes in, node by node. -/
def deliver (w : World) : World := w.modifyNodes (·.deliver w.now)

/-- The clock reaches a time. Workers for which that is a deadline can go on. -/
def jump (time : Nat) (w : World) : World :=
  { w with now := max w.now time }.modifyNodes id

/-- One move at the present time: the worker whose turn it is makes a step, or, if no worker can,
what is due comes in. -/
def move? (w : World) : Option World :=
  match w.ready with
  | index :: rest => some (w.turn index rest)
  | [] => if w.nextTimer?.any (· ≤ w.now) then some w.deliver else none

/-- Moves, and lets the clock jump from timer to timer, until nothing can move and `woken` holds, or
the alarm goes off, or nothing is left to be done. -/
def run (alarm : Option Nat) (woken : World → Bool) : (moves : Nat) → World → World
  | 0, w => w
  | moves + 1, w =>
      match w.move? with
      | some w => run alarm woken moves w
      | none =>
          if woken w then w
          else
            match alarm, w.nextTimer? with
            | none, none => w
            | none, some time => run alarm woken moves (w.jump time)
            | some alarm, none => w.jump alarm
            | some alarm, some time =>
                if alarm ≤ time then w.jump alarm
                else run (some alarm) woken moves (w.jump time)

/-- Moves that an operation may take before it is given up. -/
def patience : Nat := 1000000

def await (woken : World → Bool) (w : World) : World := run none woken patience w

/-- Waits for so many milliseconds; not at all for none. -/
def advance (duration : Nat) (w : World) : World :=
  if duration = 0 then w else run (some (w.now + duration)) (fun _ => false) patience w

/-- Whether a condition holds of a node; it does if there is none. -/
def nodeSatisfies (index : Nat) (condition : Node → Bool) (w : World) : Bool :=
  (w.node? index).all condition

/-- Waits until a node's worker has done everything it has been given so far. A worker that was
stopped is not waited for. -/
def flush (index : Nat) (w : World) : World :=
  if w.nodeSatisfies index (·.interface.isStopped) then w
  else
    (w.modifyInterface index (·.requestFlush)).await fun w =>
      w.nodeSatisfies index (·.interface.isFlushed)

/-- The local operation of a node goes on, up to so many times, until it has its answer. In between
it waits for its turn at the channel, for the confirm, or for the deadline of its transmission. -/
def operate (index : Nat) : (turns : Nat) → World → World
  | 0, w => w
  | turns + 1, w =>
      let w := w.modifyNode index (·.operate w.now)
      if w.nodeSatisfies index (·.answer.isSome) then w
      else
        let alarm := (w.node? index).bind (·.deadline? .operation)
        operate index turns
          (w.run alarm (fun w => w.nodeSatisfies index (·.canStep w.now .operation)) patience)

/-- Asks the chip on behalf of a local operation, waits for its answer, and completes the
operation. -/
def callChip (index : Nat) (call : LocalCall) (command : Host.Command) (w : World) :
    Except Error Unit × World :=
  let w := w.modifyNode index ({ · with answer := none }.enqueue .operation command)
  let turns := (w.node? index).elim 0 (·.bus.channel.attempts + 3)
  let w := w.operate index turns
  match (w.node? index).bind (·.answer) with
  | none => (.ok (), w)
  | some answer => (w.onInterface index (·.complete call answer)).getD (.ok (), w)

def configure (index : Nat) (r : SetupRequest) (w : World) : Except Error Unit × World :=
  match w.node? index with
  | none => (.ok (), w)
  | some node =>
      match node.interface.configure r with
      | .error error => (.error error, w)
      | .ok (call, command) => w.callChip index call command

def teardown (index : Nat) (flow : UInt8) (w : World) : Except Error Unit × World :=
  match w.onInterface index (·.teardown flow) with
  | none => (.ok (), w)
  | some (.error error, w) => (.error error, w)
  | some (.ok none, w) => (.ok (), w)
  | some (.ok (some (call, command)), w) => w.callChip index call command

/-- Stops a node's worker once it has done everything, and clears the node's negotiation state. -/
def finish (index : Nat) (w : World) : World :=
  let isStopped (w : World) := w.nodeSatisfies index (·.interface.isStopped)
  let w :=
    if isStopped w then w else (w.modifyInterface index (·.requestStop)).await isStopped
  w.modifyInterface index (·.clear)

/-- Takes a node's chip away. -/
def detach (index : Nat) (w : World) : World := w.modifyNode index (·.detach)

/-- Gives a node its chip back. -/
def attach (index : Nat) (w : World) : World := w.modifyNode index (·.attach)

end World

end TargetWakeTime.Simulation
