import TargetWakeTime.Proofs.Host.Prompt
import TargetWakeTime.Proofs.Interface.Actions
import TargetWakeTime.Proofs.Runs

/-!
Contract: an interface on top of a command channel to its chip.

Owns:
- how the two are put together: worker and local operations give the chip commands, and each gets the
  answer to its own;
- the moves of the whole: what the surroundings do, local operations, the steps of worker and
  channel, what comes in from the chip, and the clock;
- which flows the interface forgot while they were installed;
- quiet states, in which nothing is left to be done, and states in which the interface knows which of
  its flows the chip runs.

Any number of local operations may be under way, and moves come in any order. Only the clock is held
up: it does not pass the arrival of a confirm.

A send that ends leaves the channel, and whoever it belongs to acts on its answer, in one move. To act
on it later leads to no other states, as long as answers are acted on in the order in which they came.
-/

namespace TargetWakeTime

/-- Who gives the chip commands. -/
inductive Assembly.Sender where
  | worker
  | call (call : LocalCall)
deriving DecidableEq, Repr

structure Assembly where
  now : Nat := 0
  interface : Interface
  bus : Host.Bus Assembly.Sender Host.Chip
  /-- Flows that the interface forgot while they were installed, and for which the chip has carried out
  no command since. -/
  forgotten : List UInt8 := []

namespace Assembly

/-- The chip is attached, and nothing has happened yet. -/
def start (settings : Host.Channel.Settings) (chip : Host.Chip.Settings) (interface : Interface) :
    Assembly where
  interface := interface
  bus :=
    { channel := { settings, attached := true }
      link := { settings := chip } }

def isInstalled (flow : UInt8) (a : Assembly) : Bool := a.interface.negotiation.own.isInstalled flow

/-- Whether the chip runs an agreement for a flow of the interface. -/
def runs (flow : UInt8) (a : Assembly) : Bool :=
  (a.bus.link.installed.get? (a.interface.vif, flow)).isSome

/-! ### Moves -/

/-- The flows that are installed before and not after. -/
def dropped (before after : Interface) : List UInt8 :=
  ((List.range 8).map UInt8.ofNat).filter fun flow =>
    before.negotiation.own.isInstalled flow && !after.negotiation.own.isInstalled flow

def put (interface : Interface) (a : Assembly) : Assembly :=
  { a with interface, forgotten := a.forgotten ++ dropped a.interface interface }

def ask (sender : Sender) (command : Host.Command) (a : Assembly) : Assembly :=
  { a with bus := a.bus.enqueue sender command none }

/-- Whoever gave the chip a command gets the answer. -/
def Sender.answered (outcome : Except Host.CommandError Unit) : Sender → Interface.Action
  | .worker => .commandDone outcome.isOk
  | .call operation => .complete operation outcome

/-- The flows of a command that was carried out are forgotten no more. -/
def remember (command : Host.Command) (a : Assembly) : Assembly :=
  { a with
    forgotten := a.forgotten.filter fun flow =>
      (Host.Chip.effect? (a.interface.vif, flow) 0 command).isNone }

/-- The command of an exchange is over. -/
def settle (exchange : Option (Host.Channel.Exchange Sender))
    (completion : Host.Bus.Completion Sender) (a : Assembly) : Assembly :=
  let outcome := completion.outcome.map fun _ => ()
  let a := a.put ((completion.caller.answered outcome).apply a.interface)
  match exchange with
  | some e => if outcome.isOk then a.remember e.command else a
  | none => a

inductive Move where
  | act (action : Interface.Action) (independent : action.independent = true)
  /-- A local operation begins to configure a flow. -/
  | configure (request : SetupRequest)
  /-- A local operation begins to tear a flow down. -/
  | teardown (flow : UInt8)
  /-- A step of the worker in its own work. -/
  | work
  /-- A step on the channel, by whoever has it. -/
  | step
  /-- What is due by now comes in from the chip. -/
  | deliver
  /-- The clock goes on to this time, unless a confirm comes before. -/
  | wait (time : Nat)

/-- What one move makes of the whole. -/
def Move.apply (a : Assembly) : Move → Assembly
  | act action _ => a.put (action.apply a.interface)
  | configure request =>
      match a.interface.configure request with
      | .error _ => a
      | .ok (call, command) => a.ask (.call call) command
  | teardown flow =>
      match a.interface.teardown flow with
      | (.ok (some (call, command)), interface) => (a.put interface).ask (.call call) command
      | (_, interface) => a.put interface
  | work =>
      match a.interface.work with
      | none => a
      | some (interface, some (.command command)) => (a.put interface).ask .worker command
      | some (interface, _) => a.put interface
  | step =>
      match a.bus.step? a.now with
      | none => a
      | some (bus, completions) =>
          completions.foldl (fun after completion => after.settle a.bus.channel.exchange completion)
            { a with bus }
  | deliver => { a with bus := a.bus.deliver a.now }
  | wait time =>
      if (Host.Link.nextArrival? a.bus.link).all (time ≤ ·) then { a with now := max a.now time }
      else a

/-- The worker is idle and has no work, no command is outstanding or waits for the channel, and
nothing waits to be carried out on the chip. -/
structure Quiet (a : Assembly) : Prop where
  stage : a.interface.worker.stage = .idle
  inbox : a.interface.worker.inbox = []
  exchange : a.bus.channel.exchange = none
  queue : a.bus.channel.queue = []
  commands : a.interface.negotiation.own.commands.toList = []

theorem quiet_iff {a : Assembly} :
    a.Quiet ↔ a.interface.worker.stage = .idle ∧ a.interface.worker.inbox = [] ∧
      a.bus.channel.exchange.isNone = true ∧ a.bus.channel.queue.isEmpty = true ∧
        a.interface.negotiation.own.commands.toList = [] := by
  rw [Option.isNone_iff_eq_none, List.isEmpty_iff]
  exact ⟨fun quiet => ⟨quiet.1, quiet.2, quiet.3, quiet.4, quiet.5⟩,
    fun ⟨stage, inbox, exchange, queue, commands⟩ => ⟨stage, inbox, exchange, queue, commands⟩⟩

instance (a : Assembly) : Decidable a.Quiet := decidable_of_iff _ quiet_iff.symm

/-- The interface knows which of its flows the chip runs. -/
def Mirrors (a : Assembly) : Prop :=
  ∀ flow : UInt8, flow.toNat < 8 → (a.isInstalled flow = true ↔ a.runs flow = true)

end Assembly

end TargetWakeTime
