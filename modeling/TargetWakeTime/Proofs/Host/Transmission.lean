import TargetWakeTime.Host.Bus
import TargetWakeTime.Proofs.Host.Execution
import TargetWakeTime.Proofs.Host.Framing

/-!
Contract: the transmissions of one send, over a chip that loses the first few confirms.

Owns:
- what the channel does from each stage of an exchange, over any link;
- `Course`, a send and what its transmissions meet, and the situations on its way: before a
  transmission, while the confirm is awaited, when it has come, and when the send has ended;
- from which situation the bus gets to which one, and at what time.

Nobody else uses the channel meanwhile, and the chip has no other confirms on their way.
-/

namespace TargetWakeTime.Host

namespace Channel

variable {Caller : Type} {c : Channel Caller} {e : Exchange Caller}

theorem settle_of_ready {frame : List UInt8} (found : c.exchange = some e) (ready : e.stage = .ready)
    (made : e.command.encode (HostId.of e.sequence e.attempt) = .ok frame) :
    settle (c, none) =
      ({ c with
          exchange := some { e with stage := .inHand }
          outstanding := some
            { message := e.command.message
              hostId := HostId.of e.sequence e.attempt
              listening := true } },
        some (.transmit frame)) := by
  simp [settle, onward, proceed?, found, ready, launch, made]

theorem settle_of_waiting {deadline : Nat} {mailbox : Mailbox} (found : c.exchange = some e)
    (waits : e.stage = .waiting deadline mailbox) : settle (c, none) = (c, none) := by
  simp [settle, onward, proceed?, found, waits]

theorem settle_of_ending {outcome : Outcome} (found : c.exchange = some e)
    (leaving : e.stage = .ending outcome) : settle (c, none) = c.finish e outcome := by
  simp [settle, onward, proceed?, found, leaving, finish]

/-- A free channel without anybody who waits has nothing to do. -/
theorem step?_of_free (now : Nat) (free : c.exchange = none) (alone : c.queue = []) :
    c.step? now = none := by
  simp [step?, open?, resume?, expire?, free, alone]

/-- The first send in the queue takes the channel. -/
theorem step?_of_queued (now : Nat) {next : Pending Caller} {rest : List (Pending Caller)}
    (attached : c.attached = true) (free : c.exchange = none) (queued : c.queue = next :: rest) :
    c.step? now = some (settle
      ({ c with
          queue := rest
          sequence := nextSequence c.sequence
          power := c.power.disable
          exchange := some
            { next with sequence := nextSequence c.sequence, attempt := 0, stage := .ready } },
        none)) := by
  simp [step?, open?, attached, free, queued]

/-- Before its deadline, a transmission that nothing was left for is waited for. -/
theorem step?_of_early {now deadline : Nat} (found : c.exchange = some e)
    (waits : e.stage = .waiting deadline .empty) (early : now < deadline) : c.step? now = none := by
  have before : ¬ deadline ≤ now := Nat.not_le.mpr early
  simp [step?, open?, resume?, expire?, found, waits, before]

/-- At its deadline, a transmission is made again while there are attempts left. -/
theorem step?_of_late {now deadline : Nat} (found : c.exchange = some e)
    (waits : e.stage = .waiting deadline .empty) (late : deadline ≤ now)
    (more : e.attempt + 1 < c.attempts) :
    c.step? now = some (settle
      ({ c with
          stats := { c.stats with timeouts := c.stats.timeouts + 1 }
          exchange := some { e with attempt := e.attempt + 1, stage := .ready } },
        none)) := by
  simp [step?, open?, resume?, expire?, found, waits, late, more]

/-- A send that the chip has answered ends. -/
theorem step?_of_holds {now deadline : Nat} {r : Response} (found : c.exchange = some e)
    (holds : e.stage = .waiting deadline (.holds r)) :
    c.step? now = some
      ({ c with exchange := none, outstanding := none, power := c.power.enable },
        some (.done e.caller (outcomeOf r))) := by
  have resumed : c.resume? = some
      ({ c with exchange := some { e with stage := .ending (outcomeOf r) } }, none) := by
    simp [resume?, found, holds]
  have busy : c.open? = none := by simp [open?, found]
  rw [step?, busy, resumed]
  let leaving : Exchange Caller := { e with stage := .ending (outcomeOf r) }
  exact congrArg some (settle_of_ending (e := leaving) rfl rfl)

/-- The confirm of the present transmission is left for the send that waits for it. -/
theorem receive_of_waiting {deadline : Nat} {slot : Outstanding} {r : Response}
    (found : c.exchange = some e) (waits : e.stage = .waiting deadline .empty)
    (outstanding : c.outstanding = some slot) (listening : slot.listening = true)
    (confirms : r.isConfirm = true) (answers : slot.answeredBy r = true) :
    (c.receive r).2 =
      { c with
        outstanding := some { slot with listening := false }
        exchange := some { e with stage := .waiting deadline (.holds r) } } := by
  simp [receive, confirms, outstanding, answers, listening, complete, found, Exchange.leave, waits]

end Channel

namespace Bus

open Channel

section

variable {Caller σ : Type} [Link σ] {b after : Bus Caller σ} {ended : List (Completion Caller)}
  {now : Nat}

/-- A transmission that the link takes is out. -/
theorem carry_of_ready {c : Channel Caller} {e : Exchange Caller} {link taken : σ}
    {frame : List UInt8} (found : c.exchange = some e) (ready : e.stage = .ready)
    (made : e.command.encode (HostId.of e.sequence e.attempt) = .ok frame)
    (takes : Link.transmit now frame link = (.ok (), taken)) :
    carry now link (settle (c, none)) =
      ({ channel :=
          { c with
            exchange := some { e with stage := .waiting (now + e.wait) .empty }
            outstanding := some
              { message := e.command.message
                hostId := HostId.of e.sequence e.attempt
                listening := true }
            stats :=
              { c.stats with
                sent := c.stats.sent + 1
                retries := c.stats.retries + (if 0 < e.attempt then 1 else 0) } }
         link := taken }, []) := by
  rw [settle_of_ready found ready made]
  simp only [carry, takes, transmitted?, Option.map_some]
  rw [settle_of_waiting rfl rfl]

theorem step?_of_channel (idle : b.channel.step? now = none) : b.step? now = none := by
  rw [step?, idle]
  rfl

/-- Serving stops where somebody has to wait. -/
theorem serve_of_idle (idle : b.step? now = none) : serve now b = (b, []) := by
  unfold serve
  cases b.channel.stepBound with
  | zero => rfl
  | succ count => simp [steps, idle]

/-- A step after which somebody has to wait is all that is served. -/
theorem serve_of_step (step : b.step? now = some (after, ended)) (idle : after.step? now = none) :
    serve now b = (after, ended) := by
  have enough : 2 ≤ b.channel.stepBound := by
    have first : 1 ≤ b.channel.queue.length + 1 := Nat.le_add_left ..
    have second : 2 ≤ b.channel.attempts + 1 := Nat.succ_le_succ (Nat.le_max_right ..)
    exact Nat.mul_le_mul first second
  obtain ⟨count, bound⟩ := Nat.exists_eq_add_of_le' enough
  simp [serve, bound, steps, step, idle]

end

/-- Nothing comes in that is still on its way. -/
theorem deliver_of_early {Caller : Type} {b : Bus Caller Chip} {now : Nat}
    (early : ∀ reply ∈ b.link.replies, now < reply.due) : b.deliver now = b := by
  have none : b.link.replies.filter (·.due ≤ now) = [] :=
    List.filter_eq_nil_iff.mpr fun reply member => by simpa using early reply member
  have all : b.link.replies.filter (now < ·.due) = b.link.replies :=
    List.filter_eq_self.mpr fun reply member => by simpa using early reply member
  have arrivals : Link.arrivals now b.link = ([], b.link) := by
    show Chip.arrivals now b.link = _
    rw [Chip.arrivals, none, all]
    rfl
  rw [deliver, arrivals]
  rfl

end Bus

/-! ### The course of a send -/

/-- A send that has the channel, what was installed when it began, and how many of its confirms the
chip loses. -/
structure Course extends Channel.Pending Nat where
  sequence : Nat
  table : Chip.Table
  lost : Nat

namespace Course

variable (course : Course)

def exchange (attempt : Nat) (stage : Channel.Stage) : Channel.Exchange Nat :=
  { course.toPending with sequence := course.sequence, attempt, stage }

def hostId (attempt : Nat) : HostId := .of course.sequence attempt

/-- What is installed after so many executions. -/
def installed : (executed : Nat) → Chip.Table
  | 0 => course.table
  | executed + 1 => (Chip.executions course.table course.command executed).2

/-- The status of the execution after so many others. -/
def status (executed : Nat) : UInt32 :=
  (Chip.executions course.table course.command executed).1

theorem execute_installed (executed : Nat) :
    Chip.execute (course.installed executed) course.command =
      Chip.executions course.table course.command executed := by
  cases executed <;> rfl

/-- What holds all along, when the chip has executed the command so many times. -/
structure Serves (executed : Nat) (b : Bus Nat Chip) : Prop where
  attached : b.channel.attached = true
  alone : b.channel.queue = []
  more : course.lost < b.channel.attempts
  obedient : b.link.failNext = none
  keeps : b.link.settings.loseAll = false
  prompt : b.link.settings.latency < course.wait
  losing : b.link.dropNext = course.lost - executed
  installed : b.link.installed = course.installed executed

/-- A transmission is about to be made. -/
structure Poised (attempt : Nat) (b : Bus Nat Chip) : Prop extends course.Serves attempt b where
  exchange : b.channel.exchange = some (course.exchange attempt .ready)
  silent : b.link.replies = []

/-- A transmission was made at the time `sent`. The confirm is lost, or on its way. -/
structure Underway (sent attempt : Nat) (b : Bus Nat Chip) : Prop
    extends course.Serves (attempt + 1) b where
  exchange : b.channel.exchange =
    some (course.exchange attempt (.waiting (sent + course.wait) .empty))
  slot : b.channel.outstanding =
    some
      { message := course.command.message
        hostId := course.hostId attempt
        listening := true }
  silent : attempt < course.lost → b.link.replies = []
  answer : attempt = course.lost → ∃ request : Header,
    request.message = course.command.message.code ∧ request.hostId = course.hostId attempt ∧
      b.link.replies =
        [{ due := sent + b.link.settings.latency
           frame := (Response.confirm request (course.status attempt) []).encode }]

/-- The confirm has come. -/
structure Confirmed (r : Response) (b : Bus Nat Chip) : Prop
    extends course.Serves (course.lost + 1) b where
  exchange : ∃ attempt deadline,
    b.channel.exchange = some (course.exchange attempt (.waiting deadline (.holds r)))
  silent : b.link.replies = []

/-- The send has left the channel. -/
structure Gone (b : Bus Nat Chip) : Prop extends course.Serves (course.lost + 1) b where
  free : b.channel.exchange = none
  silent : b.link.replies = []

variable {course} {b : Bus Nat Chip} {attempt sent now : Nat}

/-- The chip executes a command that is transmitted, and answers it if no more confirms are lost. -/
theorem Poised.transmit (poised : course.Poised attempt b) (fits : course.command.Fits) (now : Nat) :
    ∃ after, Bus.carry now b.link (Channel.settle (b.channel, none)) = (after, []) ∧
      course.Underway now attempt after := by
  obtain ⟨frame, made, read⟩ := Command.exists_frame fits (course.hostId attempt)
  have received := read []
  rw [List.append_nil] at received
  refine ⟨_, Bus.carry_of_ready poised.exchange rfl made
    (Chip.transmit_of_decode now received poised.obedient), ?_⟩
  rw [poised.installed, course.execute_installed]
  -- The chip counts down what it is to lose while the send counts up its attempts.
  by_cases last : attempt < course.lost
  case pos =>
    have losing : 0 < b.link.dropNext := by
      rw [poised.losing]
      omega
    rw [Chip.answer, if_pos (Or.inl losing)]
    exact
      { poised with
        losing := (congrArg (· - 1) poised.losing).trans (Nat.sub_sub ..)
        installed := rfl
        exchange := rfl
        slot := rfl
        silent := fun _ => poised.silent
        answer := fun same => by omega }
  case neg =>
    have kept : ¬ (0 < b.link.dropNext ∨ b.link.settings.loseAll = true) := by
      simp only [poised.losing, poised.keeps, Bool.false_eq_true, or_false]
      omega
    rw [Chip.answer, if_neg kept]
    exact
      { poised with
        losing := poised.losing.trans (by omega)
        installed := rfl
        exchange := rfl
        slot := rfl
        silent := fun lost => absurd lost last
        answer := fun _ => ⟨_, rfl, rfl, by rw [poised.silent]; rfl⟩ }

/-- Nothing is done before the deadline. -/
theorem Underway.idle (underway : course.Underway sent attempt b) (early : now < sent + course.wait) :
    b.step? now = none :=
  Bus.step?_of_channel (Channel.step?_of_early underway.exchange rfl early)

/-- At the deadline the command is transmitted again. -/
theorem Underway.serve_late (underway : course.Underway sent attempt b) (fits : course.command.Fits)
    (lost : attempt < course.lost) :
    ∃ after, Bus.serve (sent + course.wait) b = (after, []) ∧
      course.Underway (sent + course.wait) (attempt + 1) after := by
  have more : attempt + 1 < b.channel.attempts :=
    Nat.lt_of_le_of_lt lost underway.more
  have late := Channel.step?_of_late underway.exchange rfl (Nat.le_refl _) more
  let again : Bus Nat Chip :=
    { b with
      channel :=
        { b.channel with
          stats := { b.channel.stats with timeouts := b.channel.stats.timeouts + 1 }
          exchange := some (course.exchange (attempt + 1) .ready) } }
  have poised : course.Poised (attempt + 1) again :=
    { underway with exchange := rfl, silent := underway.silent lost }
  obtain ⟨after, carried, next⟩ := poised.transmit fits (sent + course.wait)
  have waits : 0 < course.wait := Nat.lt_of_le_of_lt (Nat.zero_le _) underway.prompt
  refine ⟨after, Bus.serve_of_step ?_ (next.idle (by omega)), next⟩
  rw [Bus.step?, late]
  exact congrArg some carried

/-- The confirm of a transmission confirms the command. -/
theorem answeredBy_confirm {request : Header}
    (message : request.message = course.command.message.code)
    (hostId : request.hostId = course.hostId attempt) (status : UInt32) :
    Channel.Outstanding.answeredBy
      { message := course.command.message, hostId := course.hostId attempt, listening := true }
      (Response.confirm request status []) = true := by
  simp [Channel.Outstanding.answeredBy, Response.confirm, message, hostId, HostId.sameSequence]

/-- The confirm that is not lost comes to the send that waits. -/
theorem Underway.deliver (underway : course.Underway sent attempt b) (last : attempt = course.lost)
    (arrived : sent + b.link.settings.latency ≤ now) :
    ∃ r, r.status = course.status course.lost ∧ course.Confirmed r (b.deliver now) := by
  obtain ⟨request, message, hostId, replies⟩ := underway.answer last
  let r := Response.confirm request (course.status attempt) []
  have received : (b.channel.receive r).2 = _ :=
    Channel.receive_of_waiting underway.exchange rfl underway.slot rfl
      (Response.isConfirm_confirm ..) (answeredBy_confirm message hostId _)
  have delivered : b.deliver now =
      { channel := (b.channel.receive r).2, link := { b.link with replies := [] } } := by
    simp [Bus.deliver, Link.arrivals, Chip.arrivals, replies, arrived, Nat.not_lt.mpr arrived,
      Channel.receiveFrame, Response.decode_confirm, r]
  rw [delivered, received]
  subst last
  exact ⟨r, rfl, { underway with exchange := ⟨_, _, rfl⟩, silent := rfl }⟩

/-- Nothing comes of a lost confirm, nor of one that is still on its way. -/
theorem Underway.deliver_early (underway : course.Underway sent attempt b)
    (within : attempt ≤ course.lost)
    (early : attempt = course.lost → now < sent + b.link.settings.latency) : b.deliver now = b := by
  apply Bus.deliver_of_early
  intro reply member
  rcases Nat.lt_or_eq_of_le within with lost | last
  · rw [underway.silent lost] at member
    cases member
  · obtain ⟨request, -, -, replies⟩ := underway.answer last
    rw [replies] at member
    rw [List.mem_singleton.mp member]
    exact early last

/-- The send that the chip has answered ends. -/
theorem Confirmed.serve {r : Response} (confirmed : course.Confirmed r b) (now : Nat) :
    ∃ after, Bus.serve now b = (after, [⟨course.caller, Channel.outcomeOf r⟩]) ∧
      course.Gone after := by
  obtain ⟨attempt, deadline, found⟩ := confirmed.exchange
  let after : Bus Nat Chip :=
    { b with
      channel :=
        { b.channel with exchange := none, outstanding := none, power := b.channel.power.enable } }
  have step : b.step? now = some (after, [⟨course.caller, Channel.outcomeOf r⟩]) := by
    rw [Bus.step?, Channel.step?_of_holds found rfl]
    rfl
  have idle := Channel.step?_of_free (c := after.channel) now rfl confirmed.alone
  exact ⟨after, Bus.serve_of_step step (Bus.step?_of_channel idle),
    { confirmed with free := rfl, silent := confirmed.silent }⟩

/-- When something happens next. -/
theorem Underway.nextTimer? (underway : course.Underway sent attempt b)
    (within : attempt ≤ course.lost) :
    b.nextTimer? =
      some (if attempt = course.lost then sent + b.link.settings.latency else sent + course.wait) := by
  have deadline : b.channel.deadline? = some (sent + course.wait) := by
    rw [Channel.deadline?, underway.exchange]
    rfl
  have prompt := underway.prompt
  by_cases last : attempt = course.lost
  case pos =>
    obtain ⟨request, -, -, replies⟩ := underway.answer last
    have arrival : Link.nextArrival? b.link = some (sent + b.link.settings.latency) := by
      simp [Link.nextArrival?, Chip.nextArrival?, replies]
    simp only [Bus.nextTimer?, arrival, deadline, if_pos last, Option.some.injEq]
    omega
  case neg =>
    have arrival : Link.nextArrival? b.link = none := by
      simp [Link.nextArrival?, Chip.nextArrival?, underway.silent (by omega)]
    simp only [Bus.nextTimer?, arrival, deadline, if_neg last]

/-- When the confirm arrives, the send ends. -/
theorem Underway.elapse_last (underway : course.Underway sent attempt b)
    (last : attempt = course.lost) :
    ∃ r after, Bus.elapse (sent + b.link.settings.latency) b =
        (after, [⟨course.caller, Channel.outcomeOf r⟩]) ∧
      r.status = course.status course.lost ∧ course.Gone after := by
  have prompt := underway.prompt
  obtain ⟨r, status, confirmed⟩ := underway.deliver last (Nat.le_refl _)
  obtain ⟨after, served, gone⟩ := confirmed.serve (sent + b.link.settings.latency)
  refine ⟨r, after, ?_, status, gone⟩
  rw [Bus.elapse, Bus.serve_of_idle (underway.idle (by omega))]
  simp only [served, List.nil_append]

/-- When the deadline of a transmission passes whose confirm is lost, the command is transmitted
again. It may be confirmed at the same time, if the chip takes no time to answer. -/
theorem Underway.elapse_lost (underway : course.Underway sent attempt b) (fits : course.command.Fits)
    (lost : attempt < course.lost) :
    ∃ after ended, Bus.elapse (sent + course.wait) b = (after, ended) ∧
      (ended = [] ∧ course.Underway (sent + course.wait) (attempt + 1) after ∨
        ∃ r, ended = [⟨course.caller, Channel.outcomeOf r⟩] ∧
          r.status = course.status course.lost ∧ course.Gone after) := by
  have prompt := underway.prompt
  obtain ⟨again, served, next⟩ := underway.serve_late fits lost
  by_cases arrived : attempt + 1 = course.lost ∧ again.link.settings.latency = 0
  case pos =>
    have instantly : sent + course.wait + again.link.settings.latency ≤ sent + course.wait :=
      Nat.le_of_eq (by rw [arrived.2, Nat.add_zero])
    obtain ⟨r, status, confirmed⟩ := next.deliver arrived.1 instantly
    obtain ⟨after, ended, gone⟩ := confirmed.serve (sent + course.wait)
    refine ⟨after, _, ?_, .inr ⟨r, rfl, status, gone⟩⟩
    rw [Bus.elapse, served]
    simp only [ended, List.nil_append]
  case neg =>
    have nothing : again.deliver (sent + course.wait) = again :=
      next.deliver_early lost fun last => by omega
    have idle : again.step? (sent + course.wait) = none := next.idle (by omega)
    refine ⟨again, [], ?_, .inl ⟨rfl, next⟩⟩
    rw [Bus.elapse, served]
    simp only [nothing, Bus.serve_of_idle idle, List.nil_append]

end Course

/-! ### Before and after -/

/-- Nobody uses the channel, nothing is on its way, and the chip does what it is told and confirms
it, except for confirms that it loses on purpose. -/
structure Bus.Rested (b : Bus Nat Chip) : Prop where
  attached : b.channel.attached = true
  free : b.channel.exchange = none
  alone : b.channel.queue = []
  obedient : b.link.failNext = none
  keeps : b.link.settings.loseAll = false
  silent : b.link.replies = []

/-- The course of a send that begins now. -/
def Bus.course (caller : Nat) (command : Command) (wait : Option Nat) (b : Bus Nat Chip) : Course where
  caller := caller
  command := command
  wait := Channel.waitFor b.channel.settings command wait
  sequence := nextSequence b.channel.sequence
  table := b.link.installed
  lost := b.link.dropNext

theorem Course.Gone.rested {course : Course} {b : Bus Nat Chip} (gone : course.Gone b) : b.Rested :=
  { gone with }

/-- A send that has the channel for itself takes it and transmits its command at once. -/
theorem Bus.Rested.submit {b : Bus Nat Chip} {command : Command} {wait : Option Nat}
    (rested : b.Rested) (fits : command.Fits)
    (prompt : b.link.settings.latency < Channel.waitFor b.channel.settings command wait)
    (more : b.link.dropNext < b.channel.attempts) (now caller : Nat) :
    ∃ after, b.submit now caller command wait = (after, []) ∧
      (b.course caller command wait).Underway now 0 after := by
  let course := b.course caller command wait
  let begun : Bus Nat Chip :=
    { b with
      channel :=
        { b.channel with
          queue := []
          sequence := nextSequence b.channel.sequence
          power := b.channel.power.disable
          exchange := some (course.exchange 0 .ready) } }
  have queued : (b.enqueue caller command wait).channel.queue = [course.toPending] :=
    congrArg (· ++ [course.toPending]) rested.alone
  have poised : course.Poised 0 begun :=
    { rested with
      alone := rfl
      more := more
      prompt := prompt
      losing := rfl
      installed := rfl
      exchange := rfl }
  obtain ⟨after, carried, underway⟩ := poised.transmit fits now
  have waits : 0 < course.wait := Nat.lt_of_le_of_lt (Nat.zero_le _) prompt
  refine ⟨after, Bus.serve_of_step ?_ (underway.idle (by omega)), underway⟩
  have taken := Channel.step?_of_queued (c := (b.enqueue caller command wait).channel) now
    rested.attached rested.free queued
  rw [Bus.step?, taken]
  exact congrArg some carried

end TargetWakeTime.Host
