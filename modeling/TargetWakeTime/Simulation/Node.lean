import TargetWakeTime.Host.Bus
import TargetWakeTime.Host.Chip
import TargetWakeTime.Interface.LocalCall
import TargetWakeTime.Interface.Work

/-!
Contract: a simulated node, which is an interface on top of a command channel to a simulated chip.

The channel has two kinds of callers: the interface's worker, and the local operation in progress.
Each of them goes on only in steps of its own, so that a channel that one of them leaves is taken by
the other no sooner than that one's next step.
-/

namespace TargetWakeTime.Simulation

inductive Caller where
  | worker
  | operation
deriving DecidableEq, Repr

structure Node where
  interface : Interface
  bus : Host.Bus Caller Host.Chip
  /-- When events that found no place are to be tried again. -/
  alarms : List Nat := []
  /-- What the local operation in progress has learned from the chip. -/
  answer : Option (Except Host.CommandError Unit) := none

namespace Node

structure Settings where
  channel : Host.Channel.Settings := {}
  chip : Host.Chip.Settings := {}
deriving DecidableEq, Repr

/-- A node whose chip is attached. -/
def new (settings : Settings) (interface : Interface) : Node where
  interface := interface
  bus :=
    { channel := { settings := settings.channel, attached := true }
      link := { settings := settings.chip } }

def chip (n : Node) : Host.Chip := n.bus.link

def withChip (f : Host.Chip → Host.Chip) (n : Node) : Node :=
  { n with bus := { n.bus with link := f n.bus.link } }

/-- Gives a caller its answer, of which only success or failure matters. -/
def settle (n : Node) (completion : Host.Bus.Completion Caller) : Node :=
  let answer := completion.outcome.map fun _ => ()
  match completion.caller with
  | .worker => { n with interface := n.interface.commandDone answer.isOk }
  | .operation => { n with answer := some answer }

def enqueue (caller : Caller) (command : Host.Command) (n : Node) : Node :=
  { n with bus := n.bus.enqueue caller command none }

def holds (caller : Caller) (n : Node) : Bool := n.bus.channel.holder? == some caller

def canStep (now : Nat) (caller : Caller) (n : Node) : Bool :=
  n.holds caller && (n.bus.channel.step? now).isSome

/-- A caller's next step on the channel, unless it has to wait. -/
def step? (now : Nat) (caller : Caller) (n : Node) : Option Node :=
  if n.holds caller then
    (n.bus.step? now).map fun (bus, completions) => completions.foldl settle { n with bus }
  else none

/-- A caller's steps on the channel, up to so many, until it has to wait. -/
def steps (now : Nat) (caller : Caller) : (count : Nat) → Node → Node
  | 0, n => n
  | count + 1, n =>
      match n.step? now caller with
      | some n => steps now caller count n
      | none => n

/-- The local operation goes on as far as it can. -/
def operate (now : Nat) (n : Node) : Node := n.steps now .operation n.bus.channel.stepBound

def detach (n : Node) : Node := { n with bus := n.bus.detach }

def attach (n : Node) : Node := { n with bus := n.bus.attach }

/-- Whether the worker has something to do and waits for nothing. -/
def canWork (now : Nat) (n : Node) : Bool := n.interface.work.isSome || n.canStep now .worker

/-- When a caller gives up the transmission that it waits for. -/
def deadline? (caller : Caller) (n : Node) : Option Nat :=
  if n.holds caller then n.bus.channel.deadline? else none

/-- When time alone makes the next thing happen, the local operation aside. -/
def nextTimer? (n : Node) : Option Nat :=
  ((Host.Link.nextArrival? n.bus.link).toList ++ (n.deadline? .worker).toList ++ n.alarms).min?

/-- The alarms that are due by now put their work into the worker's inbox. -/
def ring (now : Nat) (n : Node) : Node :=
  let due := n.alarms.filter (· ≤ now)
  let work := due.map fun _ => Work.task (.handleEvents none)
  { n with
    alarms := n.alarms.filter (now < ·)
    interface := { n.interface with worker := n.interface.worker.push work } }

/-- What is due by now comes in: confirms from the chip, and alarms. -/
def deliver (now : Nat) (n : Node) : Node := { n with bus := n.bus.deliver now }.ring now

end Node

end TargetWakeTime.Simulation
