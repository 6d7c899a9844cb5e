import TargetWakeTime.Host.Bus

/-!
Contract: a command channel and its link on a clock of their own.

Sends are numbered in the order in which they are started. A bench keeps how and when each of them
ended, in the order of their ends.
-/

namespace TargetWakeTime.Simulation

namespace Bench

structure Finished where
  number : Nat
  time : Nat
  outcome : Host.Channel.Outcome

end Bench

structure Bench (σ : Type) where
  now : Nat := 0
  bus : Host.Bus Nat σ
  started : Nat := 0
  finished : List Bench.Finished := []

namespace Bench

variable {σ : Type} [Host.Link σ]

/-- Runs an operation of the bus and notes the sends that it ends. -/
def onBus {α : Type}
    (f : Host.Bus Nat σ → α × Host.Bus Nat σ × List (Host.Bus.Completion Nat))
    (b : Bench σ) : α × Bench σ :=
  let (result, bus, completions) := f b.bus
  (result,
    { b with
      bus
      finished := b.finished ++ completions.map fun c => ⟨c.caller, b.now, c.outcome⟩ })

def attach (b : Bench σ) : Bench σ := { b with bus := b.bus.attach }

/-- Takes the link away from the channel, and lets the channel go on. -/
def detach (b : Bench σ) : Bench σ := (b.onBus fun bus => ((), bus.detach.serve b.now)).2

def start (command : Host.Command) (wait : Option Nat) (b : Bench σ) : Bench σ :=
  ({ b with started := b.started + 1 }.onBus fun bus =>
    ((), bus.submit b.now b.started command wait)).2

def receive (r : Host.Response) (b : Bench σ) : Except Host.CommandError Unit × Bench σ :=
  b.onBus (·.receive b.now r)

def receiveFrame (frame : List UInt8) (b : Bench σ) : Except Host.CommandError Unit × Bench σ :=
  b.onBus (·.receiveFrame b.now frame)

/-- The clock reaches a time, and everything that is due by then happens. -/
def elapse (time : Nat) (b : Bench σ) : Bench σ :=
  let now := max b.now time
  ({ b with now }.onBus fun bus => ((), bus.elapse now)).2

/-- Lets the clock jump from timer to timer, not beyond `horizon`, until a condition holds. -/
def run (horizon : Option Nat) (done : Bench σ → Bool) : (moves : Nat) → Bench σ → Bench σ
  | 0, b => b
  | moves + 1, b =>
      if done b then b
      else
        match b.bus.nextTimer? with
        | none => b
        | some time => if horizon.all (time ≤ ·) then run horizon done moves (b.elapse time) else b

/-- Jumps that an operation may take before it is given up. -/
def patience : Nat := 1000000

/-- Everything that is due within this many milliseconds happens. -/
def advance (duration : Nat) (b : Bench σ) : Bench σ :=
  let time := b.now + duration
  { run (some time) (fun _ => false) patience b with now := time }

/-- How a send ended, if it has. -/
def outcome? (number : Nat) (b : Bench σ) : Option Host.Channel.Outcome :=
  (b.finished.find? (·.number == number)).map (·.outcome)

def await (number : Nat) (b : Bench σ) : Bench σ :=
  run none (fun b => (b.outcome? number).isSome) patience b

def send (command : Host.Command) (wait : Option Nat) (b : Bench σ) :
    Option Host.Channel.Outcome × Bench σ :=
  let number := b.started
  let b := (b.start command wait).await number
  (b.outcome? number, b)

/-- Starts several sends together and waits for the ends of all. -/
def sendAll (commands : List Host.Command) (b : Bench σ) :
    List Host.Channel.Outcome × Bench σ :=
  let first := b.started
  let b := commands.foldl (fun b command => b.start command none) b
  let numbers := (List.range commands.length).map (first + ·)
  let b := numbers.foldl (fun b number => b.await number) b
  (numbers.filterMap (b.outcome? ·), b)

/-- Takes the notes on the sends that ended so far. -/
def takeFinished (b : Bench σ) : List Finished × Bench σ := (b.finished, { b with finished := [] })

/-- Sends health checks one after the other, and counts those that succeed. -/
def burst : (count : Nat) → Bench σ → Nat × Bench σ
  | 0, b => (0, b)
  | count + 1, b =>
      let (outcome, b) := b.send .healthCheck none
      let (successes, b) := burst count b.takeFinished.2
      (successes + (if outcome.any (·.isOk) then 1 else 0), b)

end Bench

end TargetWakeTime.Simulation
