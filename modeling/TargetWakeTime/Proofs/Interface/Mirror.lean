import TargetWakeTime.Proofs.Interface.Assembly
import TargetWakeTime.Proofs.Interface.Installation
import TargetWakeTime.Proofs.Negotiation.IdleStations

/-!
Contract: what an interface knows of the agreements that its chip runs.

Owns:
- the answer to a command, which notes on the interface what the command did to the chip;
- `Tracked`, which tells at any time from the interface, from the flows it forgot, and from the
  command in progress, what the chip runs;
- that a quiet interface knows what its chip runs exactly if it has forgotten nothing, and that it
  forgets nothing unless it leaves its access point.

The crux is that the chip executes a command before the interface learns of it. In between, the
command in progress alone says what the chip runs for its flow.
-/

namespace TargetWakeTime

/-! ### Commands and their answers -/

theorem fits_chipBlob (a : Agreement) : a.chipBlob.length ≤ Host.Command.agreementSize := by
  rw [Agreement.length_chipBlob]
  decide

/-- The chip can be asked to carry out any event. -/
theorem Interface.fits_commandFor (vif : UInt16) (event : Event) :
    (Interface.commandFor vif event).Fits ∧ Interface.commandFor vif event ≠ .healthCheck := by
  unfold Interface.commandFor
  split
  case h_1 agreement _ => exact ⟨fits_chipBlob agreement, by simp⟩
  case h_2 => exact ⟨Nat.zero_le _, by simp⟩

namespace Assembly

open Host (Command CommandError)
open Host.Bus (Executed Exchanging)
open Host.Chip (effect?)

/-- What a sender has asked of the chip. -/
def Sender.Asked (i : Interface) (command : Command) : Sender → Prop
  | .worker =>
      ∃ event, i.worker.stage.commanded? = some event ∧ command = Interface.commandFor i.vif event
  | .call (.install agreement) => command = .install i.vif agreement.flow agreement.chipBlob
  | .call (.negotiate agreement _) => command = .validate i.vif agreement.flow agreement.chipBlob
  | .call (.uninstall flow) => command = .remove i.vif flow ∧ flow.toNat < 8

variable {i j : Interface} {sender : Sender} {command : Command} {flow : UInt8}

/-- The chip is asked for nothing that has no frame. -/
theorem fits_of_asked (asked : sender.Asked i command) : command.Fits ∧ command ≠ .healthCheck := by
  cases sender with
  | worker =>
      obtain ⟨event, -, rfl⟩ := asked
      exact Interface.fits_commandFor i.vif event
  | call operation =>
      cases operation with
      | install agreement | negotiate agreement =>
          rw [show command = _ from asked]
          exact ⟨fits_chipBlob agreement, by simp⟩
      | uninstall =>
          rw [asked.1]
          exact ⟨Nat.zero_le _, by simp⟩

/-- Whoever waits for the chip still does, unless the worker has got its answer. -/
theorem asked_of_commanded (vif : j.vif = i.vif)
    (commanded : sender = .worker → j.worker.stage.commanded? = i.worker.stage.commanded?)
    (asked : sender.Asked i command) : sender.Asked j command := by
  cases sender with
  | worker =>
      obtain ⟨event, waits, rfl⟩ := asked
      exact ⟨event, (commanded rfl).trans waits, by rw [vif]⟩
  | call operation =>
      cases operation <;> simpa [Sender.Asked, vif] using asked

theorem vif_answered (sender : Sender) (outcome : Except CommandError Unit) (i : Interface) :
    ((sender.answered outcome).apply i).vif = i.vif :=
  Interface.vif_apply _ i

/-- A command that fails changes nothing that is installed. -/
theorem isInstalled_answered_error (sender : Sender) (error : CommandError) (i : Interface) :
    ((sender.answered (.error error)).apply i).negotiation.own.isInstalled flow =
      i.negotiation.own.isInstalled flow := by
  cases sender with
  | call operation => rfl
  | worker =>
      show (i.commandDone false).negotiation.own.isInstalled flow = _
      unfold Interface.commandDone
      split <;> rfl

theorem isInstalled_noted (r : Requester) (vif : UInt16) {noted : UInt8} {value : Bool}
    (notedSmall : noted.toNat < 8) (small : flow.toNat < 8) :
    (r.setInstalled noted value).isInstalled flow =
      (if (0 : UInt32) = 0 ∧ (vif, noted) = (vif, flow) then some value else none).getD
        (r.isInstalled flow) := by
  rw [Requester.isInstalled_setInstalled notedSmall small]
  by_cases same : flow = noted
  · simp [same]
  · simp [same, Ne.symm same]

/-- A command that is carried out makes the same of what is installed as of the chip. -/
theorem isInstalled_answered_ok (asked : sender.Asked i command) (small : flow.toNat < 8)
    (framed : ∀ event ∈ i.worker.stage.events, Negotiation.FromFrame event) :
    ((sender.answered (.ok ())).apply i).negotiation.own.isInstalled flow =
      (effect? (i.vif, flow) 0 command).getD (i.negotiation.own.isInstalled flow) := by
  cases sender with
  | worker =>
      obtain ⟨event, waits, rfl⟩ := asked
      show (i.commandDone true).negotiation.own.isInstalled flow = _
      cases stage : i.worker.stage with
      | commanding current pending queue =>
          rw [stage] at waits framed
          obtain rfl : current = event := Option.some.inj waits
          simp only [Interface.commandDone, stage, if_true]
          cases framed current List.mem_cons_self with
          | @element source element agreement read =>
              exact isInstalled_noted _ i.vif agreement.flow_lt small
          | teardown source octet =>
              have masked := Negotiation.flow_lt_of_fromFrame (.teardown source octet)
              exact isInstalled_noted _ i.vif masked small
      | idle | running | applying | transmitting | stopped =>
          rw [stage] at waits
          cases waits
  | call operation =>
      cases operation with
      | install agreement =>
          rw [show command = _ from asked]
          exact isInstalled_noted _ i.vif agreement.flow_lt small
      | negotiate agreement requested =>
          rw [show command = _ from asked]
          have same : ((Negotiation.Operation.sendRequest agreement requested).apply
              i.negotiation).own.installed = i.negotiation.own.installed :=
            Negotiation.installed_apply rfl rfl
          exact congrArg (·[Requester.flowIndex flow]) same
      | uninstall removed =>
          obtain ⟨rfl, removedSmall⟩ := asked
          exact isInstalled_noted _ i.vif removedSmall small

/-! ### What is tracked -/

variable {a : Assembly} {running : Option (Executed Sender)}

theorem mem_dropped {before after : Interface} :
    flow ∈ dropped before after ↔
      flow.toNat < 8 ∧ before.negotiation.own.isInstalled flow = true ∧
        after.negotiation.own.isInstalled flow = false := by
  have eight : flow ∈ (List.range 8).map UInt8.ofNat ↔ flow.toNat < 8 := by
    rw [List.mem_map]
    constructor
    · rintro ⟨number, member, rfl⟩
      have bound := List.mem_range.mp member
      rw [UInt8.toNat_ofNat']
      omega
    · intro small
      exact ⟨flow.toNat, List.mem_range.mpr small, UInt8.ofNat_toNat⟩
  rw [dropped, List.mem_filter, eight]
  simp

/-- Whether a flow is installed, or was when the interface forgot it. -/
def noted (flow : UInt8) (a : Assembly) : Bool := a.isInstalled flow || a.forgotten.contains flow

/-- The commands that the chip has executed or that wait for the channel. -/
def asks (running : Option (Executed Sender)) (a : Assembly) : List (Host.Channel.Pending Sender) :=
  running.toList.map (·.toPending) ++ a.bus.channel.queue

/-- What is known of a whole at any time, with the command that the chip has executed without its
sender knowing of it. -/
structure Tracked (running : Option (Executed Sender)) (a : Assembly) : Prop where
  prompt : a.bus.Prompt
  exchanging : Exchanging a.now a.bus running
  framed : a.interface.negotiation.Framed
  carried : ∀ event ∈ a.interface.worker.stage.events, Negotiation.FromFrame event
  asked : ∀ p ∈ a.asks running, p.caller.Asked a.interface p.command
  once : (a.asks running).Pairwise fun p q => p.caller = .worker → q.caller ≠ .worker
  held : ∀ flow, flow.toNat < 8 →
    a.runs flow =
      (running.bind fun e => effect? (a.interface.vif, flow) e.status e.command).getD (a.noted flow)
  apart : ∀ flow ∈ a.forgotten, flow.toNat < 8 ∧ a.isInstalled flow = false

/-- What the interface forgets stays noted. -/
theorem noted_put (fewer : i.negotiation.own.isInstalled flow = true → a.isInstalled flow = true)
    (small : flow.toNat < 8) : (a.put i).noted flow = a.noted flow := by
  have told : flow ∈ dropped a.interface i ↔
      a.isInstalled flow = true ∧ i.negotiation.own.isInstalled flow = false := by
    rw [mem_dropped]
    exact and_iff_right small
  rw [Bool.eq_iff_iff]
  simp only [noted, put, isInstalled, Bool.or_eq_true, List.contains_iff_mem, List.mem_append] at *
  cases after : i.negotiation.own.isInstalled flow <;>
    cases before : a.interface.negotiation.own.isInstalled flow <;> simp_all

theorem Tracked.put (tracked : Tracked running a) (vif : i.vif = a.interface.vif)
    (framed : i.negotiation.Framed)
    (carried : ∀ event ∈ i.worker.stage.events, Negotiation.FromFrame event)
    (asked : ∀ p ∈ a.asks running, p.caller.Asked i p.command)
    (fewer : ∀ flow, i.negotiation.own.isInstalled flow = true → a.isInstalled flow = true) :
    Tracked running (a.put i) where
  prompt := tracked.prompt
  exchanging := tracked.exchanging
  framed := framed
  carried := carried
  asked := asked
  once := tracked.once
  held flow small := by
    have same : (a.put i).runs flow = a.runs flow := by rw [runs, runs, Assembly.put, vif]
    rw [same, noted_put (fewer flow) small, tracked.held flow small]
    show _ = (running.bind fun e => effect? (i.vif, flow) e.status e.command).getD _
    rw [vif]
  apart flow member := by
    rcases List.mem_append.mp member with earlier | new
    · obtain ⟨small, gone⟩ := tracked.apart flow earlier
      refine ⟨small, ?_⟩
      cases still : (a.put i).isInstalled flow with
      | false => rfl
      | true => exact absurd (fewer flow still) (by simp [gone])
    · obtain ⟨small, -, gone⟩ := mem_dropped.mp new
      exact ⟨small, gone⟩

/-- An action that brings no answer of the chip, and leaves those who wait for one waiting. -/
theorem Tracked.act (tracked : Tracked running a) {action : Interface.Action}
    (silent : action.notes = false)
    (carried : ∀ event ∈ (action.apply a.interface).worker.stage.events,
      Negotiation.FromFrame event)
    (asked : ∀ p ∈ a.asks running, p.caller.Asked (action.apply a.interface) p.command) :
    Tracked running (a.put (action.apply a.interface)) :=
  tracked.put (Interface.vif_apply _ _) (Interface.framed_apply tracked.framed _) carried asked
    fun _ => Interface.isInstalled_of_apply silent

theorem Tracked.ask (tracked : Tracked running a) (asked : sender.Asked a.interface command)
    (fresh : sender = .worker → ∀ p ∈ a.asks running, p.caller ≠ .worker) :
    Tracked running (a.ask sender command) := by
  obtain ⟨fits, chip⟩ := fits_of_asked asked
  have asks : (a.ask sender command).asks running = a.asks running ++
      [{ caller := sender, command, wait := Host.Channel.waitFor a.bus.channel.settings command none }] :=
    (List.append_assoc ..).symm
  exact
    { prompt := tracked.prompt.enqueue fits chip sender
      exchanging := tracked.exchanging.enqueue sender command none
      framed := tracked.framed
      carried := tracked.carried
      asked := by
        intro p member
        rw [asks] at member
        rcases List.mem_append.mp member with earlier | new
        · exact tracked.asked p earlier
        · rw [List.mem_singleton.mp new]
          exact asked
      once := by
        rw [asks, List.pairwise_append]
        refine ⟨tracked.once, List.pairwise_singleton _ _, ?_⟩
        intro p member q new worker
        rw [List.mem_singleton.mp new]
        exact fun same => fresh same p member worker
      held := tracked.held
      apart := tracked.apart }

/-! ### Steps on the channel -/

/-- The chip executes the first command that waits. -/
theorem Tracked.execute (tracked : Tracked none a) (idle : a.bus.Idle)
    {next : Host.Channel.Pending Sender} {rest : List (Host.Channel.Pending Sender)}
    (queued : a.bus.channel.queue = next :: rest) :
    ∃ bus status, a.bus.step? a.now = some (bus, []) ∧
      Tracked (some { toPending := next, status }) { a with bus } := by
  obtain ⟨bus, stepped, prompt, queue, installed, awaited⟩ :=
    idle.step?_of_queued a.now tracked.prompt queued
  have asks (status : UInt32) : ({ a with bus } : Assembly).asks
      (some { toPending := next, status }) = a.asks none := by
    show next :: bus.channel.queue = a.bus.channel.queue
    rw [queue, queued]
  refine ⟨bus, (Host.Chip.execute a.bus.link.installed next.command).1, stepped, ?_⟩
  exact
    { prompt
      exchanging := .awaited awaited
      framed := tracked.framed
      carried := tracked.carried
      asked := by
        rw [asks]
        exact tracked.asked
      once := by
        rw [asks]
        exact tracked.once
      held := by
        intro flow small
        have earlier : a.runs flow = a.noted flow := tracked.held flow small
        show (bus.link.installed.get? _).isSome = (effect? _ _ _).getD (a.noted flow)
        rw [installed, Host.Chip.isSome_execute, ← earlier]
        rfl
      apart := tracked.apart }

theorem effect?_of_failed {id : Host.Chip.SlotId} {status : UInt32} (failed : status ≠ 0)
    (command : Command) : effect? id status command = none := by
  cases command <;> simp [effect?, failed]

theorem stage_answered_call (operation : LocalCall) (outcome : Except CommandError Unit)
    (i : Interface) :
    (((Sender.call operation).answered outcome).apply i).worker.stage = i.worker.stage := by
  cases outcome with
  | error error => rfl
  | ok =>
      cases operation with
      | install | negotiate => exact Interface.stage_operate ..
      | uninstall => rfl

/-- Once the sender of a command has its answer, it has nothing more to carry out than before. -/
theorem mem_events_answered {outcome : Except CommandError Unit} {event : Event}
    (member : event ∈ ((sender.answered outcome).apply i).worker.stage.events) :
    event ∈ i.worker.stage.events := by
  cases sender with
  | worker => exact Interface.mem_events_commandDone member
  | call operation => rwa [stage_answered_call] at member

/-- The sender of a command that was carried out notes what it did, and the flow is forgotten no
more. -/
theorem noted_remember (framed : ∀ event ∈ a.interface.worker.stage.events, Negotiation.FromFrame event)
    (asked : sender.Asked a.interface command) (small : flow.toNat < 8) :
    ((a.put ((sender.answered (.ok ())).apply a.interface)).remember command).noted flow =
      (effect? (a.interface.vif, flow) 0 command).getD (a.noted flow) := by
  have told := isInstalled_answered_ok asked small framed
  have vif := vif_answered sender (.ok ()) a.interface
  generalize (sender.answered (.ok ())).apply a.interface = i at told vif
  cases effect : effect? (a.interface.vif, flow) 0 command with
  | some value =>
      have out : ¬ flow ∈ ((a.put i).remember command).forgotten := by
        intro member
        have none := (List.mem_filter.mp member).2
        rw [show (a.put i).interface.vif = _ from vif, effect] at none
        cases none
      rw [effect] at told
      show (i.negotiation.own.isInstalled flow || List.contains _ flow) = value
      rw [told, List.contains_eq_mem, decide_eq_false out]
      exact Bool.or_false value
  | none =>
      rw [effect] at told
      have same : ((a.put i).remember command).forgotten.contains flow =
          (a.put i).forgotten.contains flow := by
        rw [Bool.eq_iff_iff, List.contains_iff_mem, List.contains_iff_mem, remember, List.mem_filter,
          show (a.put i).interface.vif = _ from vif, effect]
        simp
      show (i.negotiation.own.isInstalled flow || List.contains _ flow) = a.noted flow
      rw [same]
      exact noted_put (fun installed => told.symm.trans installed) small

/-- Flows that stay forgotten are not installed. -/
theorem apart_remember (framed : ∀ event ∈ a.interface.worker.stage.events, Negotiation.FromFrame event)
    (asked : sender.Asked a.interface command)
    (apart : ∀ flow ∈ a.forgotten, flow.toNat < 8 ∧ a.isInstalled flow = false) :
    ∀ flow ∈ ((a.put ((sender.answered (.ok ())).apply a.interface)).remember command).forgotten,
      flow.toNat < 8 ∧
        (a.put ((sender.answered (.ok ())).apply a.interface)).isInstalled flow = false := by
  intro flow member
  obtain ⟨stays, silent⟩ := List.mem_filter.mp member
  rcases List.mem_append.mp stays with earlier | new
  · obtain ⟨small, gone⟩ := apart flow earlier
    have none : effect? (a.interface.vif, flow) 0 command = none := by
      rw [← Option.isNone_iff_eq_none, ← vif_answered sender (.ok ()) a.interface]
      exact silent
    have told := isInstalled_answered_ok asked small framed
    rw [none] at told
    exact ⟨small, told.trans gone⟩
  · obtain ⟨small, -, gone⟩ := mem_dropped.mp new
    exact ⟨small, gone⟩

/-- Whatever the answer makes the interface forget is forgotten no more. -/
theorem forgotten_remember (framed : ∀ event ∈ a.interface.worker.stage.events, Negotiation.FromFrame event)
    (asked : sender.Asked a.interface command) :
    ∀ flow ∈ ((a.put ((sender.answered (.ok ())).apply a.interface)).remember command).forgotten,
      flow ∈ a.forgotten := by
  intro flow member
  obtain ⟨stays, silent⟩ := List.mem_filter.mp member
  rcases List.mem_append.mp stays with earlier | new
  · exact earlier
  · obtain ⟨small, before, after⟩ := mem_dropped.mp new
    have none : effect? (a.interface.vif, flow) 0 command = none := by
      rw [← Option.isNone_iff_eq_none, ← vif_answered sender (.ok ()) a.interface]
      exact silent
    rw [isInstalled_answered_ok asked small framed, none, Option.getD_none, before] at after
    cases after

theorem settle_of_ok {e : Host.Channel.Exchange Sender} {completion : Host.Bus.Completion Sender}
    (ended : (completion.outcome.map fun _ => ()) = .ok ()) :
    a.settle (some e) completion =
      (a.put ((completion.caller.answered (.ok ())).apply a.interface)).remember e.command := by
  simp only [settle, ended]
  rfl

theorem settle_of_error {e : Host.Channel.Exchange Sender}
    {completion : Host.Bus.Completion Sender} {error : CommandError}
    (ended : (completion.outcome.map fun _ => ()) = .error error) :
    a.settle (some e) completion =
      a.put ((completion.caller.answered (.error error)).apply a.interface) := by
  simp only [settle, ended]
  rfl

/-- The command in progress is past, and nothing else has changed on the way to the chip. -/
structure Past (a : Assembly) (bus : Host.Bus Sender Host.Chip) : Prop where
  prompt : bus.Prompt
  idle : bus.Idle
  queue : bus.channel.queue = a.bus.channel.queue
  installed : bus.link.installed = a.bus.link.installed

variable {executed : Executed Sender} {bus : Host.Bus Sender Host.Chip}

/-- Whoever waits behind a command still does once its sender has the answer. -/
theorem Tracked.waiting (tracked : Tracked (some executed) a) (past : Past a bus)
    (outcome : Except CommandError Unit) : ∀ p ∈ bus.channel.queue,
      p.caller.Asked ((executed.caller.answered outcome).apply a.interface) p.command := by
  obtain ⟨first, -⟩ := List.pairwise_cons.mp tracked.once
  rw [past.queue]
  intro p member
  refine asked_of_commanded (vif_answered _ _ _) (fun worker => ?_)
    (tracked.asked p (List.mem_cons_of_mem _ member))
  cases sender : executed.caller with
  | worker => exact absurd worker (first p member sender)
  | call operation => rw [stage_answered_call]

theorem Tracked.once_past (tracked : Tracked (some executed) a) (past : Past a bus) :
    bus.channel.queue.Pairwise fun p q => p.caller = .worker → q.caller ≠ .worker := by
  rw [past.queue]
  exact (List.pairwise_cons.mp tracked.once).2

theorem Tracked.held_past (tracked : Tracked (some executed) a) (past : Past a bus)
    (small : flow.toNat < 8) : ({ a with bus } : Assembly).runs flow =
      (effect? (a.interface.vif, flow) executed.status executed.command).getD (a.noted flow) := by
  have earlier : a.runs flow = _ := tracked.held flow small
  rw [runs, past.installed]
  exact earlier

/-- The sender learns that its command was carried out. -/
theorem Tracked.answer_ok (tracked : Tracked (some executed) a) (past : Past a bus)
    (succeeded : executed.status = 0) :
    Tracked none ((({ a with bus } : Assembly).put
      ((executed.caller.answered (.ok ())).apply a.interface)).remember executed.command) := by
  have asked : executed.caller.Asked a.interface executed.command :=
    tracked.asked executed.toPending List.mem_cons_self
  refine
    { prompt := past.prompt
      exchanging := .free past.idle
      framed := Interface.framed_apply tracked.framed _
      carried := fun event member => tracked.carried event (mem_events_answered member)
      asked := tracked.waiting past (.ok ())
      once := tracked.once_past past
      held := fun flow small => ?_
      apart := apart_remember (a := { a with bus }) tracked.carried asked tracked.apart }
  have held := tracked.held_past past small
  rw [succeeded] at held
  have noted := noted_remember (a := { a with bus }) tracked.carried asked small
  refine Eq.trans ?_ (held.trans noted.symm)
  exact congrArg (fun vif => (bus.link.installed.get? (vif, flow)).isSome) (vif_answered ..)

/-- The sender learns that its command failed. -/
theorem Tracked.answer_error (tracked : Tracked (some executed) a) (past : Past a bus)
    (failed : executed.status ≠ 0) (error : CommandError) :
    Tracked none
      (({ a with bus } : Assembly).put ((executed.caller.answered (.error error)).apply a.interface)) := by
  have waited : Tracked none { a with bus } :=
    { prompt := past.prompt
      exchanging := .free past.idle
      framed := tracked.framed
      carried := tracked.carried
      asked := fun p member => tracked.asked p (List.mem_cons_of_mem _ (past.queue ▸ member))
      once := tracked.once_past past
      held := fun flow small => by
        rw [tracked.held_past past small, effect?_of_failed failed]
        rfl
      apart := tracked.apart }
  exact waited.put (vif_answered ..) (Interface.framed_apply tracked.framed _)
    (fun event member => tracked.carried event (mem_events_answered member))
    (tracked.waiting past (.error error)) fun flow still => by rwa [isInstalled_answered_error] at still

/-- A failure makes the interface forget nothing. -/
theorem forgotten_answer_error (sender : Sender) (error : CommandError) :
    ∀ flow ∈ (a.put ((sender.answered (.error error)).apply a.interface)).forgotten,
      flow ∈ a.forgotten := by
  intro flow member
  rcases List.mem_append.mp member with earlier | new
  · exact earlier
  · obtain ⟨-, before, after⟩ := mem_dropped.mp new
    rw [isInstalled_answered_error, before] at after
    cases after

/-- The sender of the command in progress gets its answer. -/
theorem Tracked.answer (tracked : Tracked (some executed) a) (answered : a.bus.Answered executed) :
    ∃ bus completion, a.bus.step? a.now = some (bus, [completion]) ∧
      Tracked none (({ a with bus } : Assembly).settle a.bus.channel.exchange completion) ∧
      ∀ flow ∈ (({ a with bus } : Assembly).settle a.bus.channel.exchange completion).forgotten,
        flow ∈ a.forgotten := by
  obtain ⟨r, bus, stepped, status, prompt, idle, queue, installed⟩ := answered.step? tracked.prompt
  obtain ⟨_, _, _, _, exchange, -⟩ := answered.exchange
  have past : Past a bus := ⟨prompt, idle, queue, installed⟩
  refine ⟨bus, _, stepped, ?_⟩
  rw [exchange]
  by_cases succeeded : executed.status = 0
  · have ended : ((Host.Channel.outcomeOf r).map fun _ => ()) = .ok () := by
      rw [Host.Channel.outcomeOf, if_pos (status.trans succeeded)]
      rfl
    rw [settle_of_ok ended]
    exact ⟨tracked.answer_ok past succeeded, forgotten_remember (a := { a with bus }) tracked.carried
      (tracked.asked executed.toPending List.mem_cons_self)⟩
  · obtain ⟨error, ended⟩ :
        ∃ error, ((Host.Channel.outcomeOf r).map fun _ => ()) = .error error := by
      rw [Host.Channel.outcomeOf, if_neg (status ▸ succeeded)]
      exact ⟨_, rfl⟩
    rw [settle_of_error ended]
    exact ⟨tracked.answer_error past succeeded error,
      forgotten_answer_error (a := { a with bus }) executed.caller error⟩

/-! ### Moves -/

/-- Something is tracked. -/
def Followed (a : Assembly) : Prop := ∃ running, Tracked running a

theorem followed_act {action : Interface.Action} (followed : a.Followed)
    (independent : action.independent = true) :
    (Move.apply a (.act action independent)).Followed := by
  obtain ⟨running, tracked⟩ := followed
  obtain ⟨events, commanded⟩ := Interface.stage_of_independent (i := a.interface) independent
  refine ⟨running, tracked.act ?_ ?_ fun p member => ?_⟩
  · cases action <;> first | rfl | cases independent
  · rw [events]
    exact tracked.carried
  · exact asked_of_commanded (Interface.vif_apply _ _) (fun _ => commanded) (tracked.asked p member)

/-- What a flow is configured with is what the chip is asked about. -/
theorem asked_of_configure {request : SetupRequest} {operation : LocalCall}
    (begun : i.configure request = .ok (operation, command)) :
    (Sender.call operation).Asked i command := by
  cases Interface.configured begun with
  | installs | asks => rfl

theorem followed_configure (followed : a.Followed) (request : SetupRequest) :
    (Move.apply a (.configure request)).Followed := by
  obtain ⟨running, tracked⟩ := followed
  rw [Move.apply]
  split
  case h_1 => exact ⟨running, tracked⟩
  case h_2 operation command begun =>
    exact ⟨running, tracked.ask (asked_of_configure begun) fun worker => by cases worker⟩

/-- A flow that the chip is asked to remove is one of the eight. -/
theorem asked_of_teardown {after : Interface} {operation : LocalCall}
    (begun : i.teardown flow = (.ok (some (operation, command)), after)) :
    (Sender.call operation).Asked after command := by
  obtain ⟨rfl, rfl, small⟩ := Interface.teardown_asks begun
  exact ⟨rfl, small⟩

theorem followed_teardown (followed : a.Followed) (flow : UInt8) :
    (Move.apply a (.teardown flow)).Followed := by
  obtain ⟨running, tracked⟩ := followed
  have same : (Interface.Action.teardown flow).apply a.interface = (a.interface.teardown flow).2 := rfl
  have stage : (a.interface.teardown flow).2.worker.stage = a.interface.worker.stage := by
    rw [Interface.teardown_snd]
    exact Interface.stage_operate ..
  have begun : Tracked running (a.put (a.interface.teardown flow).2) := by
    rw [← same]
    refine tracked.act rfl ?_ fun p member => ?_
    · rw [same, stage]
      exact tracked.carried
    · refine asked_of_commanded (Interface.vif_apply _ _) (fun _ => ?_) (tracked.asked p member)
      rw [same, stage]
  rw [Move.apply]
  split
  case h_1 operation command after found =>
    rw [found] at begun
    exact ⟨running, begun.ask (asked_of_teardown found) fun worker => by cases worker⟩
  case h_2 found =>
    rw [found] at begun
    exact ⟨running, begun⟩

/-- A worker that waits for the chip makes no step. -/
theorem work_of_commanded {event : Event} (waits : i.worker.stage.commanded? = some event) :
    i.work = none := by
  cases stage : i.worker.stage with
  | commanding => simp [Interface.work, stage]
  | idle | running | applying | transmitting | stopped =>
      rw [stage] at waits
      cases waits

/-- Only carrying out an event asks the chip for anything. -/
theorem command_perform (task : Task) (queue : List Task) (i : Interface) (command : Command) :
    (i.perform task queue).2 ≠ some (.command command) := by
  cases task with
  | sendSetup | sendTeardown =>
      simp only [Interface.perform, Interface.sendFrame]
      split <;> simp
  | handleEvents | applyCommands | retryEvents => simp [Interface.perform]

theorem followed_work (followed : a.Followed) : (Move.apply a .work).Followed := by
  obtain ⟨running, tracked⟩ := followed
  rw [Move.apply]
  cases found : a.interface.work with
  | none => exact ⟨running, tracked⟩
  | some result =>
      obtain ⟨after, request⟩ := result
      have same : Interface.Action.work.apply a.interface = after := by
        rw [Interface.Action.apply, found]
        rfl
      have calls : ∀ p ∈ a.asks running, p.caller ≠ .worker := by
        intro p member worker
        have asked := tracked.asked p member
        rw [worker] at asked
        obtain ⟨event, waits, -⟩ := asked
        rw [work_of_commanded waits] at found
        cases found
      have made : Tracked running (a.put after) := by
        rw [← same]
        refine tracked.act rfl ?_ fun p member => ?_
        · rw [same]
          intro event member
          rcases Interface.mem_events_work found member with queued | carried
          · exact tracked.framed.commands event queued
          · exact tracked.carried event carried
        · exact asked_of_commanded (Interface.vif_apply _ _)
            (fun worker => absurd worker (calls p member)) (tracked.asked p member)
      refine ⟨running, ?_⟩
      cases Interface.worked found with
      | @begun event pending queue stage =>
          exact made.ask ⟨event, rfl, rfl⟩ fun _ => calls
      | @performed task queue _ =>
          have asksNothing := command_perform task queue a.interface
          generalize a.interface.perform task queue = result at asksNothing made
          obtain ⟨after, request⟩ := result
          cases request with
          | none => exact made
          | some request =>
              cases request with
              | command command => exact absurd rfl (asksNothing command)
              | transmit | alarm => exact made
      | taken | flushed | stopped | done | applied => exact made

/-- A step on the channel leaves something tracked, and forgets nothing. -/
theorem Tracked.step (tracked : Tracked running a) :
    (Move.apply a .step).Followed ∧ ∀ flow ∈ (Move.apply a .step).forgotten, flow ∈ a.forgotten := by
  have exchanging := tracked.exchanging
  rw [Move.apply]
  cases exchanging with
  | free idle =>
      cases queued : a.bus.channel.queue with
      | nil =>
          rw [idle.step? queued]
          exact ⟨⟨none, tracked⟩, fun _ => id⟩
      | cons next rest =>
          obtain ⟨bus, status, stepped, executed⟩ := tracked.execute idle queued
          rw [stepped]
          exact ⟨⟨_, executed⟩, fun _ => id⟩
  | awaited awaited =>
      rw [awaited.step?]
      exact ⟨⟨_, tracked⟩, fun _ => id⟩
  | answered answered =>
      obtain ⟨bus, completion, stepped, told, fewer⟩ := tracked.answer answered
      rw [stepped]
      exact ⟨⟨none, told⟩, fewer⟩

/-- What comes in from the chip changes nothing but the channel. -/
theorem Tracked.deliver (tracked : Tracked running a)
    {bus : Host.Bus Sender Host.Chip} (prompt : bus.Prompt) (exchanging : Exchanging a.now bus running)
    (queue : bus.channel.queue = a.bus.channel.queue)
    (installed : bus.link.installed = a.bus.link.installed) : Tracked running { a with bus } :=
  have asks : ({ a with bus } : Assembly).asks running = a.asks running := by rw [asks, asks, queue]
  { prompt, exchanging
    framed := tracked.framed
    carried := tracked.carried
    asked := asks ▸ tracked.asked
    once := asks ▸ tracked.once
    held := fun flow small => by
      rw [runs, installed]
      exact tracked.held flow small
    apart := tracked.apart }

theorem followed_deliver (followed : a.Followed) : (Move.apply a .deliver).Followed := by
  obtain ⟨running, tracked⟩ := followed
  have exchanging := tracked.exchanging
  rw [Move.apply]
  cases exchanging with
  | free idle =>
      rw [Host.Bus.deliver_of_silent idle.silent]
      exact ⟨none, tracked⟩
  | @awaited executed due awaited =>
      rcases Nat.lt_or_ge a.now due with early | arrived
      · rw [awaited.deliver_early early]
        exact ⟨some executed, tracked⟩
      · obtain ⟨answered, prompt, queue, installed⟩ := awaited.deliver tracked.prompt arrived
        exact ⟨some executed, tracked.deliver prompt (.answered answered) queue installed⟩
  | @answered executed answered =>
      rw [Host.Bus.deliver_of_silent answered.silent]
      exact ⟨some executed, tracked⟩

theorem followed_wait (followed : a.Followed) (time : Nat) : (Move.apply a (.wait time)).Followed := by
  obtain ⟨running, tracked⟩ := followed
  rw [Move.apply]
  split
  case isFalse => exact ⟨running, tracked⟩
  case isTrue within =>
    refine ⟨running, { tracked with exchanging := ?_ }⟩
    have exchanging := tracked.exchanging
    cases exchanging with
    | free idle => exact .free idle
    | answered answered => exact .answered answered
    | @awaited executed due awaited =>
        rw [awaited.nextArrival?] at within
        have before : time ≤ due := by simpa using within
        exact .awaited (awaited.later (Nat.max_le.mpr ⟨awaited.coming, before⟩))

theorem followed_apply (followed : a.Followed) (move : Move) : (move.apply a).Followed := by
  cases move with
  | act action independent => exact followed_act followed independent
  | configure request => exact followed_configure followed request
  | teardown flow => exact followed_teardown followed flow
  | work => exact followed_work followed
  | step =>
      obtain ⟨running, tracked⟩ := followed
      exact tracked.step.1
  | deliver => exact followed_deliver followed
  | wait time => exact followed_wait followed time

/-- Whether a move makes the interface leave its access point. -/
def Move.Leaves (a : Assembly) : Move → Prop
  | act action _ => a.interface.Leaves action
  | _ => False

theorem forgotten_put (same : i.negotiation.own.installed = a.interface.negotiation.own.installed) :
    (a.put i).forgotten = a.forgotten := by
  have nothing : dropped a.interface i = [] := by
    refine List.eq_nil_iff_forall_not_mem.mpr fun flow member => ?_
    obtain ⟨-, before, after⟩ := mem_dropped.mp member
    rw [Requester.isInstalled, same] at after
    exact absurd (before.symm.trans after) (by simp)
  rw [put, nothing, List.append_nil]

/-- Nothing more is forgotten, unless the interface leaves its access point. -/
theorem forgotten_apply (followed : a.Followed) {move : Move} (stays : ¬ move.Leaves a) :
    ∀ flow ∈ (move.apply a).forgotten, flow ∈ a.forgotten := by
  have unchanged {after : Assembly} (same : after.forgotten = a.forgotten) :
      ∀ flow ∈ after.forgotten, flow ∈ a.forgotten := fun flow member => same ▸ member
  have quietly (action : Interface.Action) (silent : action.notes = false)
      (here : ¬ a.interface.Leaves action) :
      (a.put (action.apply a.interface)).forgotten = a.forgotten :=
    forgotten_put (Interface.installed_of_apply silent here)
  cases move with
  | act action independent =>
      refine unchanged (quietly action ?_ stays)
      cases action <;> first | rfl | cases independent
  | configure request =>
      rw [Move.apply]
      split <;> exact unchanged rfl
  | teardown flow =>
      have begun := quietly (.teardown flow) rfl (by rintro ⟨_, same, _⟩; cases same)
      rw [Interface.Action.apply] at begun
      rw [Move.apply]
      split
      case h_1 found =>
        rw [found] at begun
        exact unchanged begun
      case h_2 found =>
        rw [found] at begun
        exact unchanged begun
  | work =>
      have made := quietly .work rfl (by rintro ⟨_, same, _⟩; cases same)
      rw [Interface.Action.apply] at made
      rw [Move.apply]
      split
      case h_1 => exact unchanged rfl
      case h_2 found =>
        rw [found] at made
        exact unchanged made
      case h_3 found =>
        rw [found] at made
        exact unchanged made
  | step =>
      obtain ⟨running, tracked⟩ := followed
      exact tracked.step.2
  | deliver => exact unchanged rfl
  | wait time =>
      rw [Move.apply]
      split <;> exact unchanged rfl

/-- At the start nothing is tracked, and nothing forgotten. -/
theorem followed_start (settings : Host.Channel.Settings) (chip : Host.Chip.Settings) (vif : UInt16)
    (address : MacAddress) (negotiation : Negotiation.Settings)
    (patient : chip.latency < settings.timeout) (keeps : chip.loseAll = false) :
    (start settings chip (.new vif address negotiation)).Followed := by
  refine ⟨none, ?_⟩
  exact
    { prompt :=
        { attached := rfl
          obedient := rfl
          spares := rfl
          keeps := keeps
          patient := patient
          queued := fun p member => by cases member }
      exchanging := .free ⟨rfl, rfl⟩
      framed :=
        { events := fun event member => by cases member
          commands := fun event member => by cases member }
      carried := fun event member => by cases member
      asked := fun p member => by cases member
      once := List.Pairwise.nil
      held := fun flow small => by
        simp [runs, start, noted, isInstalled, Interface.new, Negotiation.new, Requester.isInstalled,
          Host.Chip.Table.get?]
      apart := fun flow member => by cases member }

/-- While no command is outstanding, the chip runs the flows that are installed and those that the
interface forgot. -/
theorem runs_of_free (followed : a.Followed) (free : a.bus.channel.exchange = none)
    (small : flow.toNat < 8) : a.runs flow = a.noted flow := by
  obtain ⟨running, tracked⟩ := followed
  have held := tracked.held flow small
  have exchanging := tracked.exchanging
  cases exchanging with
  | free => exact held
  | awaited awaited =>
      obtain ⟨_, _, _, found, -⟩ := awaited.exchange
      rw [free] at found
      cases found
  | answered answered =>
      obtain ⟨_, _, _, _, found, -⟩ := answered.exchange
      rw [free] at found
      cases found

theorem mirrors_iff_of_free (followed : a.Followed) (free : a.bus.channel.exchange = none) :
    a.Mirrors ↔ a.forgotten = [] := by
  constructor
  · intro mirrors
    refine List.eq_nil_iff_forall_not_mem.mpr fun flow member => ?_
    obtain ⟨running, tracked⟩ := followed
    obtain ⟨small, gone⟩ := tracked.apart flow member
    have runs := runs_of_free ⟨running, tracked⟩ free small
    rw [noted, gone, List.contains_iff_mem.mpr member] at runs
    exact absurd ((mirrors flow small).mpr runs) (by simp [gone])
  · intro nothing flow small
    rw [runs_of_free followed free small, noted, nothing]
    simp

section Runs

variable (settings : Host.Channel.Settings) (chip : Host.Chip.Settings) (vif : UInt16)
  (address : MacAddress) (negotiation : Negotiation.Settings)

/-- An interface that never leaves its access point knows in every quiet state what its chip runs. -/
theorem mirrors_of_neverLeaves (patient : chip.latency < settings.timeout)
    (keeps : chip.loseAll = false) {moves : List Move}
    (stays : ∀ step ∈ Runs.steps Move.apply (start settings chip (.new vif address negotiation)) moves,
      ¬ step.2.Leaves step.1) :
    ∀ a ∈ Runs.reached Move.apply (start settings chip (.new vif address negotiation)) moves,
      a.Quiet → a.Mirrors := by
  intro a member quiet
  have known : a.Followed ∧ a.forgotten = [] :=
    Runs.invariant_of_steps (fun a => a.Followed ∧ a.forgotten = [])
      (fun a move (holds : a.Followed ∧ a.forgotten = []) (here : ¬ move.Leaves a) =>
        ⟨followed_apply holds.1 move, List.eq_nil_iff_forall_not_mem.mpr fun flow member =>
          List.not_mem_nil (holds.2 ▸ forgotten_apply holds.1 here flow member)⟩)
      ⟨followed_start settings chip vif address negotiation patient keeps, rfl⟩ stays a member
  exact (mirrors_iff_of_free known.1 quiet.exchange).mpr known.2

/-- In every quiet state of every run, the installed flows are the ones that the chip runs, exactly
if the interface has forgotten no flow that was installed and that the chip was not told of since. -/
theorem mirrors_iff_nothingForgotten (patient : chip.latency < settings.timeout)
    (keeps : chip.loseAll = false) (moves : List Move) :
    ∀ a ∈ Runs.reached Move.apply (start settings chip (.new vif address negotiation)) moves,
      a.Quiet → (a.Mirrors ↔ a.forgotten = []) := by
  intro a member quiet
  have followed : a.Followed :=
    Runs.invariant_of_steps Followed (fun a move followed (_ : True) => followed_apply followed move)
      (followed_start settings chip vif address negotiation patient keeps) (fun _ _ => trivial)
      a member
  exact mirrors_iff_of_free followed quiet.exchange

end Runs

/-- A station asks for a flow, is granted it, and installs it; then it leaves its access point. -/
def leftInstalled : List Move :=
  let accessPoint : MacAddress := ⟨2, 0, 0, 0, 0, 0⟩
  let granted := Agreement.ofParameters .zero
    { Parameters.zero with
      requestType := { RequestType.zero with implicit := true, command := .accept }
      minimumDuration := 1
      mantissa := 1024 }
  [.act (.relink (Association.associate accessPoint {})) rfl,
    .configure { flow := 0, interval := .explicit 1024 0, duration := 256 },
    .step, .wait 1, .deliver, .step,
    .work, .work, .act .frameSent rfl, .work,
    .act (.receiveSetup accessPoint 1 granted.element) rfl,
    .work, .work, .work, .work,
    .step, .wait 2, .deliver, .step,
    .work, .work,
    .act (.removeStation accessPoint) rfl]

/-- The chip goes on running the flow, and the interface knows nothing of it. -/
theorem not_mirrors_leftInstalled :
    ¬ ∀ a ∈ Runs.reached Move.apply (start {} {} (.new 1 ⟨2, 0, 0, 0, 0, 9⟩ .station)) leftInstalled,
        a.Quiet → a.Mirrors := by
  intro holds
  let last := leftInstalled.foldl Move.apply (start {} {} (.new 1 ⟨2, 0, 0, 0, 0, 9⟩ .station))
  have quiet : last.Quiet := by decide +kernel
  have known : last.isInstalled 0 = true ↔ last.runs 0 = true :=
    holds last (Runs.foldl_mem_reached _ _) quiet 0 (by decide)
  revert known
  decide +kernel

/-- The station knows that its chip runs the flow until it leaves its access point. -/
theorem mirrors_iff_nothingForgotten_leftInstalled :
    let start := start {} {} (.new 1 ⟨2, 0, 0, 0, 0, 9⟩ .station)
    let before := leftInstalled.dropLast.foldl Move.apply start
    let after := leftInstalled.foldl Move.apply start
    before.Quiet ∧ before.runs 0 = true ∧ before.Mirrors ∧ after.Quiet ∧ ¬ after.Mirrors := by
  intro start before after
  have quietBefore : before.Quiet := by decide +kernel
  have quietAfter : after.Quiet := by decide +kernel
  have mirrors := mirrors_iff_nothingForgotten {} {} 1 ⟨2, 0, 0, 0, 0, 9⟩ .station (by decide) rfl
  refine ⟨quietBefore, by decide +kernel, ?_, quietAfter, ?_⟩
  · exact (mirrors leftInstalled.dropLast before (Runs.foldl_mem_reached _ _) quietBefore).mpr
      (by decide +kernel)
  · rw [mirrors leftInstalled after (Runs.foldl_mem_reached _ _) quietAfter]
    decide +kernel

end Assembly

end TargetWakeTime
