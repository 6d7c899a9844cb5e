import TargetWakeTime.Host.Channel
import TargetWakeTime.Host.Link

/-!
Contract: a command channel together with its link.

`step?` is one step of whoever has the channel; `serve` makes steps until that one has to wait for
time to pass or for something to come in. Steps yield the sends that ended, in order.
-/

namespace TargetWakeTime.Host

structure Bus (Caller σ : Type) where
  channel : Channel Caller
  link : σ

namespace Bus

variable {Caller σ : Type} [Link σ]

structure Completion (Caller : Type) where
  caller : Caller
  outcome : Channel.Outcome

/-- Acts on a step of the channel: a frame goes to the link, and its answer back to the channel. -/
def carry (now : Nat) (link : σ) : Channel.Moved Caller → Bus Caller σ × List (Completion Caller)
  | (channel, none) => ({ channel, link }, [])
  | (channel, some (.done caller outcome)) => ({ channel, link }, [{ caller, outcome }])
  | (channel, some (.transmit frame)) =>
      let (taken, link) := Link.transmit now frame link
      match (channel.transmitted? now taken).map Channel.settle with
      | some (channel, some (.done caller outcome)) => ({ channel, link }, [{ caller, outcome }])
      | some (channel, _) => ({ channel, link }, [])
      | none => ({ channel, link }, [])

/-- What the holder of the channel does next, unless it has to wait. -/
def step? (now : Nat) (b : Bus Caller σ) : Option (Bus Caller σ × List (Completion Caller)) :=
  (b.channel.step? now).map (carry now b.link)

/-- Up to so many steps of the channel, as far as nobody has to wait. -/
def steps (now : Nat) : (count : Nat) → Bus Caller σ → Bus Caller σ × List (Completion Caller)
  | 0, b => (b, [])
  | count + 1, b =>
      match b.step? now with
      | none => (b, [])
      | some (b, ended) =>
          let (b, later) := steps now count b
          (b, ended ++ later)

/-- Everything that can happen on the channel at this time. -/
def serve (now : Nat) (b : Bus Caller σ) : Bus Caller σ × List (Completion Caller) :=
  steps now b.channel.stepBound b

def enqueue (caller : Caller) (command : Command) (wait : Option Nat) (b : Bus Caller σ) :
    Bus Caller σ :=
  { b with channel := b.channel.submit caller command wait }

def submit (now : Nat) (caller : Caller) (command : Command) (wait : Option Nat)
    (b : Bus Caller σ) : Bus Caller σ × List (Completion Caller) :=
  serve now (b.enqueue caller command wait)

def receive (now : Nat) (r : Response) (b : Bus Caller σ) :
    Except CommandError Unit × Bus Caller σ × List (Completion Caller) :=
  let (accepted, channel) := b.channel.receive r
  (accepted, serve now { b with channel })

def receiveFrame (now : Nat) (frame : List UInt8) (b : Bus Caller σ) :
    Except CommandError Unit × Bus Caller σ × List (Completion Caller) :=
  let (accepted, channel) := b.channel.receiveFrame frame
  (accepted, serve now { b with channel })

def attach (b : Bus Caller σ) : Bus Caller σ := { b with channel := b.channel.attach }

/-- The link is lost; who waits for it learns of that in a step of its own. -/
def detach (b : Bus Caller σ) : Bus Caller σ := { b with channel := b.channel.detach }

def nextTimer? (b : Bus Caller σ) : Option Nat :=
  match Link.nextArrival? b.link, b.channel.deadline? with
  | some arrival, some deadline => some (min arrival deadline)
  | some time, none | none, some time => some time
  | none, none => none

/-- The frames that have come back by now reach the host, in order. -/
def deliver (now : Nat) (b : Bus Caller σ) : Bus Caller σ :=
  let (frames, link) := Link.arrivals now b.link
  { channel := frames.foldl (fun channel frame => (channel.receiveFrame frame).2) b.channel, link }

/-- Everything that is due by now happens: first the deadline, then what comes back. -/
def elapse (now : Nat) (b : Bus Caller σ) : Bus Caller σ × List (Completion Caller) :=
  let (b, expired) := serve now b
  let (b, ended) := serve now (b.deliver now)
  (b, expired ++ ended)

end Bus

end TargetWakeTime.Host
