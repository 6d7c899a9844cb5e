import TargetWakeTime.Proofs.Host.Transmission

/-!
Contract: exchanges with a chip that loses nothing, fails nothing, and answers in time.

Owns:
- reading the chip's table after a command, and what a command does to a slot;
- prompt buses, on which no command is ever transmitted twice;
- how far the exchange in progress is, and which command the chip has executed without its sender
  knowing of it;
- from which of these situations a step, an arrival, or the clock leads to which one.

Any number of callers may use the channel. While a confirm is on its way, the clock does not pass
its arrival.
-/

namespace TargetWakeTime.Host

namespace Chip

theorem Table.get?_insert (id other : SlotId) (agreement : List UInt8) (t : Table) :
    (t.insert id agreement).get? other = if other = id then some agreement else t.get? other := by
  induction t with
  | nil =>
      by_cases same : other = id
      · simp [Table.insert, Table.get?, same]
      · simp [Table.insert, Table.get?, same, Ne.symm same]
  | cons entry rest inductionHypothesis =>
      unfold Table.insert
      by_cases own : entry.1 = id
      · rw [if_pos own]
        by_cases same : other = id
        · simp [Table.get?, same]
        · simp [Table.get?, same, Ne.symm same, own]
      · rw [if_neg own]
        by_cases before : slotLt id entry.1 = true
        · rw [if_pos before]
          by_cases same : other = id
          · simp [Table.get?, same]
          · simp [Table.get?, same, Ne.symm same]
        · rw [if_neg before]
          by_cases here : entry.1 = other
          · have apart : ¬ other = id := fun same => own (here.trans same)
            simp [Table.get?, here, apart]
          · have passed : (entry.1 == other) = false := by simpa using here
            simpa [Table.get?, passed] using inductionHypothesis

theorem Table.get?_erase_of_ne {id other : SlotId} (apart : other ≠ id) (t : Table) :
    (t.erase id).get? other = t.get? other := by
  have passes : (fun entry : SlotId × List UInt8 =>
      decide (decide (entry.1 ≠ id) = true ∧ (entry.1 == other) = true)) =
      fun entry => entry.1 == other := by
    funext entry
    by_cases here : entry.1 = other
    · simp [here, apart]
    · simp [here]
  rw [Table.get?, Table.get?, Table.erase, List.find?_filter, passes]

/-- What a command that was answered with this status made of a slot: `true` if an agreement is
installed there now, `false` if none is any more. -/
def effect? (id : SlotId) (status : UInt32) : Command → Option Bool
  | .install vif flow _ => if status = 0 ∧ (vif, flow) = id then some true else none
  | .remove vif flow => if status = 0 ∧ (vif, flow) = id then some false else none
  | .healthCheck | .validate .. => none

/-- The effect of a command is all that it changes about which slots are taken. -/
theorem isSome_execute (t : Table) (command : Command) (id : SlotId) :
    ((execute t command).2.get? id).isSome =
      (effect? id (execute t command).1 command).getD (t.get? id).isSome := by
  cases command with
  | healthCheck | validate => rfl
  | install vif flow agreement =>
      by_cases same : id = (vif, flow)
      · simp [execute, effect?, Table.get?_insert, same]
      · simp [execute, effect?, Table.get?_insert, same, Ne.symm same]
  | remove vif flow =>
      cases found : t.get? (vif, flow) with
      | none => simp [execute, effect?, found, statusInvalid]
      | some agreement =>
          by_cases same : id = (vif, flow)
          · simp [execute, effect?, found, same, Table.get?_erase]
          · simp [execute, effect?, found, Ne.symm same, Table.get?_erase_of_ne same]

end Chip

namespace Bus

variable {Caller : Type}

/-- The chip executes and confirms everything, and every confirm that a waiting command gets comes
before its sender gives up. -/
structure Prompt (b : Bus Caller Chip) : Prop where
  attached : b.channel.attached = true
  obedient : b.link.failNext = none
  spares : b.link.dropNext = 0
  keeps : b.link.settings.loseAll = false
  patient : b.link.settings.latency < b.channel.settings.timeout
  queued : ∀ p ∈ b.channel.queue, p.command.Fits ∧ b.link.settings.latency < p.wait

/-- A command that the chip has executed, and the status it did so with. -/
structure Executed (Caller : Type) extends Channel.Pending Caller where
  status : UInt32

/-- Nobody has the channel, and nothing is on its way. -/
structure Idle (b : Bus Caller Chip) : Prop where
  free : b.channel.exchange = none
  silent : b.link.replies = []

/-- The chip has executed a command, and the confirm arrives at the time `due`. -/
structure Awaited (now due : Nat) (executed : Executed Caller) (b : Bus Caller Chip) : Prop where
  exchange : ∃ sequence attempt deadline,
    b.channel.exchange =
      some
        { executed with sequence, attempt, stage := .waiting deadline .empty } ∧ due < deadline
  confirm : ∃ slot request,
    b.channel.outstanding = some slot ∧ slot.listening = true ∧
      slot.answeredBy (Response.confirm request executed.status []) = true ∧
      b.link.replies =
        [{ due, frame := (Response.confirm request executed.status []).encode }]
  coming : now ≤ due

/-- The chip has executed a command, and the confirm has come. -/
structure Answered (executed : Executed Caller) (b : Bus Caller Chip) : Prop where
  exchange : ∃ sequence attempt deadline r,
    b.channel.exchange =
      some
        { executed with sequence, attempt, stage := .waiting deadline (.holds r) } ∧
      r.status = executed.status
  silent : b.link.replies = []

/-- How far the exchange in progress is, and what has been executed in its course. -/
inductive Exchanging (now : Nat) (b : Bus Caller Chip) : Option (Executed Caller) → Prop where
  | free (idle : b.Idle) : Exchanging now b none
  | awaited {executed : Executed Caller} {due : Nat} (awaited : b.Awaited now due executed) :
      Exchanging now b (some executed)
  | answered {executed : Executed Caller} (answered : b.Answered executed) :
      Exchanging now b (some executed)

variable {b : Bus Caller Chip} {now due : Nat} {executed : Executed Caller}

/-- Nothing happens before the next command is there. -/
theorem Idle.step? (idle : b.Idle) (alone : b.channel.queue = []) : b.step? now = none :=
  step?_of_channel (Channel.step?_of_free now idle.free alone)

/-- The first command that waits is executed, and its confirm is on its way. -/
theorem Idle.step?_of_queued (now : Nat) {next : Channel.Pending Caller} {rest : List (Channel.Pending Caller)}
    (idle : b.Idle) (prompt : b.Prompt) (queued : b.channel.queue = next :: rest) :
    ∃ after, b.step? now = some (after, []) ∧ after.Prompt ∧
      after.channel.queue = rest ∧ after.link.installed = (Chip.execute b.link.installed next.command).2 ∧
      after.Awaited now (now + b.link.settings.latency)
        { toPending := next, status := (Chip.execute b.link.installed next.command).1 } := by
  obtain ⟨fits, patient⟩ := prompt.queued next (by rw [queued]; exact List.mem_cons_self)
  let e : Channel.Exchange Caller :=
    { next with sequence := nextSequence b.channel.sequence, attempt := 0, stage := .ready }
  let begun : Channel Caller :=
    { b.channel with
      queue := rest
      sequence := nextSequence b.channel.sequence
      power := b.channel.power.disable
      exchange := some e }
  obtain ⟨frame, made, read⟩ := Command.exists_frame fits (HostId.of e.sequence e.attempt)
  have received := read []
  rw [List.append_nil] at received
  have kept : ¬ (0 < b.link.dropNext ∨ b.link.settings.loseAll = true) := by
    simp [prompt.spares, prompt.keeps]
  have taken := Chip.transmit_of_decode (c := b.link) now received prompt.obedient
  rw [Chip.answer, if_neg kept] at taken
  have carried : carry now b.link (Channel.settle (begun, none)) = _ :=
    carry_of_ready (c := begun) (e := e) rfl rfl made taken
  have opened : b.channel.step? now = some (Channel.settle (begun, none)) :=
    Channel.step?_of_queued now prompt.attached idle.free queued
  have stepped : b.step? now = some (carry now b.link (Channel.settle (begun, none))) := by
    rw [Bus.step?, opened]
    rfl
  rw [carried] at stepped
  refine ⟨_, stepped, ?_, rfl, rfl, ?_⟩
  · exact
      { attached := prompt.attached
        obedient := prompt.obedient
        spares := prompt.spares
        keeps := prompt.keeps
        patient := prompt.patient
        queued := fun p member => prompt.queued p (by rw [queued]; exact List.mem_cons_of_mem _ member) }
  · refine
      { exchange := ⟨_, _, _, rfl, Nat.add_lt_add_left patient now⟩
        confirm := ⟨_, next.command.requestHeader (HostId.of e.sequence e.attempt), rfl, rfl,
          ?_, by rw [idle.silent]; rfl⟩
        coming := Nat.le_add_right .. }
    simp [Channel.Outstanding.answeredBy, Response.confirm, Command.requestHeader,
      HostId.sameSequence, e]

/-- While its confirm is on its way, a command is waited for. -/
theorem Awaited.step? (awaited : b.Awaited now due executed) : b.step? now = none := by
  obtain ⟨sequence, attempt, deadline, found, early⟩ := awaited.exchange
  exact step?_of_channel
    (Channel.step?_of_early found rfl (Nat.lt_of_le_of_lt awaited.coming early))

/-- The clock may go on until the confirm arrives. -/
theorem Awaited.later {time : Nat} (awaited : b.Awaited now due executed) (within : time ≤ due) :
    b.Awaited time due executed :=
  { awaited with coming := within }

/-- The confirm arrives. -/
theorem Awaited.deliver (awaited : b.Awaited now due executed) (prompt : b.Prompt)
    (arrived : due ≤ now) :
    (b.deliver now).Answered executed ∧ (b.deliver now).Prompt ∧
      (b.deliver now).channel.queue = b.channel.queue ∧
      (b.deliver now).link.installed = b.link.installed := by
  obtain ⟨sequence, attempt, deadline, found, -⟩ := awaited.exchange
  obtain ⟨slot, request, outstanding, listening, answers, replies⟩ := awaited.confirm
  have received := Channel.receive_of_waiting found rfl outstanding listening
    (Response.isConfirm_confirm request executed.status []) answers
  have delivered : b.deliver now =
      { channel := (b.channel.receive (Response.confirm request executed.status [])).2
        link := { b.link with replies := [] } } := by
    simp [Bus.deliver, Link.arrivals, Chip.arrivals, replies, arrived, Nat.not_lt.mpr arrived,
      Channel.receiveFrame, Response.decode_confirm]
  rw [delivered, received]
  exact ⟨⟨⟨_, _, _, _, rfl, rfl⟩, rfl⟩, { prompt with }, rfl, rfl⟩

/-- Until then nothing comes in. -/
theorem Awaited.deliver_early (awaited : b.Awaited now due executed) (early : now < due) :
    b.deliver now = b := by
  obtain ⟨slot, request, -, -, -, replies⟩ := awaited.confirm
  apply deliver_of_early
  rw [replies]
  intro reply member
  rw [List.mem_singleton.mp member]
  exact early

/-- Without a command that was executed, nothing comes in at all. -/
theorem deliver_of_silent (silent : b.link.replies = []) : b.deliver now = b :=
  deliver_of_early (by simp [silent])

/-- A command whose confirm has come is over. -/
theorem Answered.step? (answered : b.Answered executed) (prompt : b.Prompt) :
    ∃ r after, b.step? now = some (after, [⟨executed.caller, Channel.outcomeOf r⟩]) ∧
      r.status = executed.status ∧ after.Prompt ∧ after.Idle ∧
      after.channel.queue = b.channel.queue ∧ after.link.installed = b.link.installed := by
  obtain ⟨sequence, attempt, deadline, r, found, status⟩ := answered.exchange
  have stepped : b.step? now = _ :=
    congrArg (Option.map (carry now b.link)) (Channel.step?_of_holds found rfl)
  exact ⟨r, _, stepped, status, { prompt with }, ⟨rfl, answered.silent⟩, rfl, rfl⟩

/-! ### Who has the channel, and what is still to come -/

theorem Idle.holder?_of_empty (idle : b.Idle) (empty : b.channel.queue = []) :
    b.channel.holder? = none := by
  simp [Channel.holder?, idle.free, empty]

theorem Idle.holder?_of_queued {next : Channel.Pending Caller} (idle : b.Idle)
    (queued : b.channel.queue = [next]) : b.channel.holder? = some next.caller := by
  simp [Channel.holder?, idle.free, queued]

theorem Awaited.holder? (awaited : b.Awaited now due executed) :
    b.channel.holder? = some executed.caller := by
  obtain ⟨sequence, attempt, deadline, found, -⟩ := awaited.exchange
  simp [Channel.holder?, found]

theorem Answered.holder? (answered : b.Answered executed) :
    b.channel.holder? = some executed.caller := by
  obtain ⟨sequence, attempt, deadline, r, found, -⟩ := answered.exchange
  simp [Channel.holder?, found]

theorem nextArrival?_of_silent (silent : b.link.replies = []) : Link.nextArrival? b.link = none := by
  show (b.link.replies.map (·.due)).min? = none
  rw [silent]
  rfl

theorem Awaited.nextArrival? (awaited : b.Awaited now due executed) :
    Link.nextArrival? b.link = some due := by
  obtain ⟨_, request, _, _, _, replies⟩ := awaited.confirm
  show (b.link.replies.map (·.due)).min? = some due
  rw [replies]
  rfl

/-- The sender gives up later than at the time of the confirm. -/
theorem Awaited.deadline? (awaited : b.Awaited now due executed) :
    ∃ deadline, b.channel.deadline? = some deadline ∧ due < deadline := by
  obtain ⟨sequence, attempt, deadline, found, early⟩ := awaited.exchange
  refine ⟨deadline, ?_, early⟩
  rw [Channel.deadline?, found]
  rfl

/-! ### Any of these situations -/

theorem Exchanging.enqueue {running : Option (Executed Caller)}
    (exchanging : Exchanging now b running) (caller : Caller) (command : Command)
    (wait : Option Nat) : Exchanging now (b.enqueue caller command wait) running := by
  cases exchanging with
  | free idle => exact .free ⟨idle.free, idle.silent⟩
  | awaited awaited => exact .awaited ⟨awaited.exchange, awaited.confirm, awaited.coming⟩
  | answered answered => exact .answered ⟨answered.exchange, answered.silent⟩

theorem Prompt.enqueue {command : Command} (prompt : b.Prompt) (fits : command.Fits)
    (asks : command ≠ .healthCheck) (caller : Caller) : (b.enqueue caller command none).Prompt :=
  { prompt with
    queued := fun p member => by
      rcases List.mem_append.mp member with earlier | new
      · exact prompt.queued p earlier
      · rw [List.mem_singleton.mp new]
        refine ⟨fits, ?_⟩
        show b.link.settings.latency < Channel.waitFor b.channel.settings command none
        simpa only [Channel.waitFor, if_neg asks] using prompt.patient }

/-- How an exchange ends for its sender. -/
theorem isOk_outcomeOf (r : Response) :
    ((Channel.outcomeOf r).map fun _ => ()).isOk = decide (r.status = 0) := by
  rw [Channel.outcomeOf]
  split <;> simp_all [Except.map, Except.isOk, Except.toBool]

end Bus

end TargetWakeTime.Host
