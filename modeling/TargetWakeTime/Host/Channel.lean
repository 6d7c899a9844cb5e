import TargetWakeTime.Host.Command
import TargetWakeTime.Host.PowerSave
import TargetWakeTime.Host.Response

/-!
Contract: the command channel from host to chip.

Owns:
- the queue of sends that wait for the channel, served in order, one exchange at a time;
- the exchange in progress: its transmissions, how far the present one has got, and what was left
  for it meanwhile;
- the outstanding slot, which says what confirm is listened for;
- sequence numbers, the hold on power save, and the counts of what happened.

Does not own the link: a step that transmits yields the frame as a signal, and the outcome comes
back through `transmitted?`. Does not own the clock: steps that need the time take it as an argument.

A send runs in steps, from one place where it may have to wait to the next, and nothing comes
between within a step. What callers see is a signal, at most one a step. While the link has a frame
in hand, nobody gets at the outstanding slot: a response, and the second half of losing the link,
have to wait. `step?` goes on for as long as nothing is waited for. A send that waits no time for its
confirm gives up each transmission as soon as it is made.
-/

namespace TargetWakeTime.Host

namespace Channel

structure Settings where
  /-- Milliseconds that a transmission waits for its confirm. -/
  timeout : Nat := 600
  /-- The same for health checks. -/
  healthTimeout : Nat := 1000
  /-- Transmissions of a command, the first one included; none counts as one. -/
  maximumAttempts : Nat := 2
deriving DecidableEq, Repr

structure Stats where
  sent : Nat := 0
  retries : Nat := 0
  timeouts : Nat := 0
  stale : Nat := 0
deriving DecidableEq, Repr

structure Pending (Caller : Type) where
  caller : Caller
  command : Command
  /-- Milliseconds to wait for each transmission's confirm. -/
  wait : Nat
deriving Repr

abbrev Outcome := Except CommandError Response

/-- What the receive path left for the exchange in progress. -/
inductive Mailbox where
  | empty
  | holds (response : Response)
  /-- Nothing will come any more. -/
  | closed
deriving DecidableEq, Repr

/-- How far an exchange has got with its present transmission. -/
inductive Stage where
  /-- The frame is still to be made. -/
  | ready
  /-- The link has the frame in hand. -/
  | inHand
  /-- The frame is out. It is given up at the deadline if nothing is left by then. -/
  | waiting (deadline : Nat) (mailbox : Mailbox)
  /-- All is over but for leaving the channel. -/
  | ending (outcome : Outcome)
deriving Repr

/-- The send that has the channel. -/
structure Exchange (Caller : Type) extends Pending Caller where
  sequence : Nat
  /-- Transmissions before the present one. -/
  attempt : Nat
  stage : Stage
deriving Repr

/-- What confirm is listened for. -/
structure Outstanding where
  message : MessageId
  hostId : HostId
  /-- Cleared by the first confirm that matches, and by losing the link. -/
  listening : Bool
deriving DecidableEq, Repr

/-- The visible effect of a step. -/
inductive Signal (Caller : Type) where
  | transmit (frame : List UInt8)
  | done (caller : Caller) (outcome : Outcome)

end Channel

structure Channel (Caller : Type) where
  settings : Channel.Settings
  attached : Bool := false
  power : PowerSave := {}
  /-- The sequence number last given out. -/
  sequence : Nat := 0
  queue : List (Channel.Pending Caller) := []
  exchange : Option (Channel.Exchange Caller) := none
  outstanding : Option Channel.Outstanding := none
  stats : Channel.Stats := {}

namespace Channel

variable {Caller : Type}

/-- A channel after a step of the send that has it, and what there was to see. -/
abbrev Moved (Caller : Type) := Channel Caller × Option (Signal Caller)

/-- How long a send waits for each confirm: what was asked for, unless that is nothing or zero. -/
def waitFor (settings : Settings) (command : Command) : Option Nat → Nat
  | some (wait + 1) => wait + 1
  | _ => if command = .healthCheck then settings.healthTimeout else settings.timeout

def attach (c : Channel Caller) : Channel Caller := { c with attached := true }

/-- Leaves something for an exchange. It counts only while the exchange waits, and only if nothing
was left before. -/
def Exchange.leave (mailbox : Mailbox) (e : Exchange Caller) : Exchange Caller :=
  match e.stage with
  | .waiting deadline .empty => { e with stage := .waiting deadline mailbox }
  | _ => e

/-- Whoever completes the outstanding slot leaves something for the exchange in progress. -/
def complete (slot : Outstanding) (mailbox : Mailbox) (c : Channel Caller) : Channel Caller :=
  { c with
    outstanding := some { slot with listening := false }
    exchange := c.exchange.map (·.leave mailbox) }

def unlink (c : Channel Caller) : Channel Caller := { c with attached := false }

/-- Once the link is lost, an exchange that still waits for its confirm learns that none will
come. -/
def hangUp (c : Channel Caller) : Channel Caller :=
  match c.outstanding with
  | some slot => if slot.listening then c.complete slot .closed else c
  | none => c

/-- Drops the link. -/
def detach (c : Channel Caller) : Channel Caller := c.unlink.hangUp

def submit (caller : Caller) (command : Command) (requested : Option Nat) (c : Channel Caller) :
    Channel Caller :=
  { c with
    queue := c.queue ++ [{ caller, command, wait := waitFor c.settings command requested }] }

/-- The first send in the queue takes the channel, if nobody has it. Without a link the send ends at
once and uses no sequence number. -/
def open? (c : Channel Caller) : Option (Moved Caller) :=
  match c.exchange, c.queue with
  | none, next :: rest =>
      let c := { c with queue := rest }
      if c.attached then
        let sequence := nextSequence c.sequence
        let e : Exchange Caller := { next with sequence, attempt := 0, stage := .ready }
        some ({ c with sequence, power := c.power.disable, exchange := some e }, none)
      else
        some (c, some (.done next.caller (.error .noTransport)))
  | _, _ => none

/-- Puts a transmission of an exchange in place and hands its frame to the link. -/
def launch (e : Exchange Caller) (c : Channel Caller) : Moved Caller :=
  let hostId := HostId.of e.sequence e.attempt
  match e.command.encode hostId with
  | .error error => ({ c with exchange := some { e with stage := .ending (.error error) } }, none)
  | .ok frame =>
      ({ c with
          exchange := some { e with stage := .inHand }
          outstanding := some { message := e.command.message, hostId, listening := true } },
        some (.transmit frame))

/-- An exchange leaves the channel. -/
def finish (e : Exchange Caller) (outcome : Outcome) (c : Channel Caller) : Moved Caller :=
  ({ c with exchange := none, outstanding := none, power := c.power.enable },
    some (.done e.caller outcome))

/-- What an exchange does that waits for nothing: it transmits, or leaves. -/
def proceed? (c : Channel Caller) : Option (Moved Caller) :=
  match c.exchange with
  | none => none
  | some e =>
      match e.stage with
      | .ready => some (c.launch e)
      | .ending outcome => some (c.finish e outcome)
      | .inHand | .waiting .. => none

/-- The link took the frame in hand, or refused it. -/
def transmitted? (now : Nat) (outcome : Except LinkError Unit) (c : Channel Caller) :
    Option (Moved Caller) :=
  match c.exchange with
  | none => none
  | some e =>
      match e.stage, outcome with
      | .inHand, .error error =>
          let stage := .ending (.error error.toCommandError)
          some ({ c with exchange := some { e with stage } }, none)
      | .inHand, .ok () =>
          let stats :=
            { c.stats with
              sent := c.stats.sent + 1
              retries := c.stats.retries + (if 0 < e.attempt then 1 else 0) }
          let stage := .waiting (now + e.wait) .empty
          some ({ c with stats, exchange := some { e with stage } }, none)
      | _, _ => none

/-- Whether a confirm answers the outstanding command. The retry field does not count. -/
def Outstanding.answeredBy (slot : Outstanding) (r : Response) : Bool :=
  slot.message.code == r.header.message && slot.hostId.sameSequence r.header.hostId

/-- The chip sent a response. The first confirm that matches is left for the exchange; any other one
is counted as stale. The slot is taken and the confirm left at once: a timeout of the attempt that
comes between the two might as well come before both. -/
def receive (r : Response) (c : Channel Caller) : Except CommandError Unit × Channel Caller :=
  if r.isConfirm then
    let stale := { c with stats := { c.stats with stale := c.stats.stale + 1 } }
    match c.outstanding with
    | some slot =>
        if slot.answeredBy r ∧ slot.listening then (.ok (), c.complete slot (.holds r))
        else (.error .staleResponse, stale)
    | none => (.error .staleResponse, stale)
  else (.error (.unsolicitedEvent r.header.message), c)

def receiveFrame (frame : List UInt8) (c : Channel Caller) :
    Except CommandError Unit × Channel Caller :=
  match Response.decode frame with
  | .ok r => c.receive r
  | .error error => (.error error, c)

/-- What a caller learns from the confirm of its command. -/
def outcomeOf (r : Response) : Outcome :=
  if r.status = 0 then .ok r else .error (.deviceError r.status)

/-- The exchange takes up what was left for it, if anything was. -/
def resume? (c : Channel Caller) : Option (Moved Caller) :=
  match c.exchange with
  | none => none
  | some e =>
      match e.stage with
      | .waiting _ (.holds r) =>
          some ({ c with exchange := some { e with stage := .ending (outcomeOf r) } }, none)
      | .waiting _ .closed =>
          some ({ c with exchange := some { e with stage := .ending (.error .noTransport) } }, none)
      | _ => none

def attempts (c : Channel Caller) : Nat := max c.settings.maximumAttempts 1

/-- Gives up the present transmission once its deadline has passed with nothing left for it: the
command is transmitted again, or the send ends when all its transmissions are used up. -/
def expire? (now : Nat) (c : Channel Caller) : Option (Moved Caller) :=
  match c.exchange with
  | none => none
  | some e =>
      match e.stage with
      | .waiting deadline .empty =>
          if deadline ≤ now then
            let stats := { c.stats with timeouts := c.stats.timeouts + 1 }
            let e :=
              if e.attempt + 1 < c.attempts then
                { e with attempt := e.attempt + 1, stage := .ready }
              else { e with stage := .ending (.error .timeout) }
            some ({ c with stats, exchange := some e }, none)
          else none
      | _ => none

/-- When the present transmission is given up. -/
def deadline? (c : Channel Caller) : Option Nat :=
  c.exchange.bind fun e =>
    match e.stage with
    | .waiting deadline _ => some deadline
    | .ready | .inHand | .ending _ => none

/-- Who has the channel: the caller of the exchange in progress, or else the first that waits. The
channel passes to it when the exchange before it ends, but it begins in a step of its own. -/
def holder? (c : Channel Caller) : Option Caller :=
  match c.exchange with
  | some e => some e.caller
  | none => c.queue.head?.map (·.caller)

/-- The send goes on if there was nothing to see yet and it waits for nothing. -/
def onward (moved : Moved Caller) : Moved Caller :=
  match moved with
  | (c, none) => c.proceed?.getD (c, none)
  | (_, some _) => moved

/-- The send goes on until it has to wait: it transmits, and leaves if there is nothing to
transmit. -/
def settle (moved : Moved Caller) : Moved Caller := onward (onward moved)

/-- What the holder of the channel does next, unless it has to wait: it begins, takes up what was
left for it, or gives up a transmission whose deadline has passed. -/
def step? (now : Nat) (c : Channel Caller) : Option (Moved Caller) :=
  (((c.open?).or c.resume?).or (c.expire? now)).map settle

/-- Steps after which all sends have ended, even if none of them ever waits. -/
def stepBound (c : Channel Caller) : Nat := (c.queue.length + 1) * (c.attempts + 1)

end Channel

end TargetWakeTime.Host
