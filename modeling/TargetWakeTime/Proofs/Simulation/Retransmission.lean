import TargetWakeTime.Proofs.Host.Transmission
import TargetWakeTime.Simulation.ChipBench

/-!
Contract: what a sender notices of lost confirms.

Owns:
- a send on a bench, from its start over its retransmissions to its end;
- the comparison of two runs, one with so many confirms lost and one with none.

A command whose confirm is lost is executed again with each retransmission. The table of the chip
does not show it. The sender is told otherwise only if it removed an agreement: the first execution
removed it, so that there is nothing left for the last one, which is the one that is confirmed.
-/

namespace TargetWakeTime.Simulation.Bench

open Host

variable {b : Bench Chip} {course : Course} {attempt : Nat}

/-- A bench on which nothing is under way. -/
structure Ready (b : Bench Chip) : Prop where
  rested : b.bus.Rested
  numbered : ∀ ended ∈ b.finished, ended.number < b.started

/-- A new bench is ready, whatever its chip holds. -/
theorem ready_ofChip (channel : Channel.Settings) {chip : Chip.Settings}
    (keeps : chip.loseAll = false) (t : Chip.Table) :
    ((ofChip channel chip).withChip (·.holding t)).Ready where
  rested :=
    { attached := rfl, free := rfl, alone := rfl, obedient := rfl, keeps := keeps, silent := rfl }
  numbered _ member := by cases member

/-- The latest send waits for the confirm of a transmission. -/
structure Awaits (course : Course) (attempt : Nat) (b : Bench Chip) : Prop where
  underway : course.Underway b.now attempt b.bus
  started : b.started = course.caller + 1
  numbered : ∀ ended ∈ b.finished, ended.number < course.caller

/-- The latest send has ended with a response of the chip. -/
structure Ended (course : Course) (r : Response) (b : Bench Chip) : Prop where
  gone : course.Gone b.bus
  outcome : b.outcome? course.caller = some (Channel.outcomeOf r)
  status : r.status = course.status course.lost
  numbered : ∀ ended ∈ b.finished, ended.number < b.started

theorem elapse_eq {time : Nat} {bus : Bus Nat Chip} {ended : List (Bus.Completion Nat)}
    (elapsed : b.bus.elapse time = (bus, ended)) (later : b.now ≤ time) :
    b.elapse time =
      { b with
        now := time
        bus
        finished := b.finished ++ ended.map fun c => ⟨c.caller, time, c.outcome⟩ } := by
  simp only [elapse, Nat.max_eq_right later, onBus, elapsed]

theorem Awaits.outcome? (awaits : Awaits course attempt b) : b.outcome? course.caller = none := by
  have unlike : ∀ ended ∈ b.finished, ¬ (ended.number == course.caller) = true := by
    intro ended member same
    have before := awaits.numbered ended member
    rw [beq_iff_eq] at same
    omega
  rw [Bench.outcome?, List.find?_eq_none.mpr unlike]
  rfl

/-- A send ends when the bus says so. -/
theorem Awaits.ended {bus : Bus Nat Chip} {r : Response} (awaits : Awaits course attempt b)
    (time : Nat) (gone : course.Gone bus)
    (status : r.status = course.status course.lost) :
    Ended course r
      { b with
        now := time
        bus
        finished := b.finished ++ [⟨course.caller, time, Channel.outcomeOf r⟩] } where
  gone := gone
  outcome := by
    have before := awaits.outcome?
    rw [Bench.outcome?, Option.map_eq_none_iff] at before
    simp [Bench.outcome?, List.find?_append, before]
  status := status
  numbered := by
    intro ended member
    show ended.number < b.started
    rw [awaits.started]
    rcases List.mem_append.mp member with earlier | new
    · exact Nat.lt_succ_of_lt (awaits.numbered ended earlier)
    · rw [List.mem_singleton.mp new]
      exact Nat.lt_succ_self _

/-- Nobody waits for a send that has ended. -/
theorem Ended.run {r : Response} (ended : Ended course r b) (moves : Nat) :
    run none (fun b => (b.outcome? course.caller).isSome) moves b = b := by
  cases moves with
  | zero => rfl
  | succ moves => simp [Bench.run, ended.outcome]

/-- A send ends after as many jumps of the clock as confirms are still to be lost, and one more. -/
theorem Awaits.run {moves : Nat} (awaits : Awaits course attempt b) (fits : course.command.Fits)
    (within : attempt ≤ course.lost) (enough : course.lost - attempt < moves) :
    ∃ r, Ended course r
      (run none (fun b => (b.outcome? course.caller).isSome) moves b) := by
  induction moves generalizing b attempt with
  | zero => omega
  | succ moves inductionHypothesis =>
      -- The clock jumps to the one confirm that is on its way, or to the deadline of a transmission
      -- whose confirm is lost; only after such a deadline is there anything left for the hypothesis.
      have waits : (b.outcome? course.caller).isSome = false := by rw [awaits.outcome?]; rfl
      rw [Bench.run, if_neg (Bool.eq_false_iff.mp waits), awaits.underway.nextTimer? within]
      simp only [Option.all_none, if_true]
      by_cases last : attempt = course.lost
      case pos =>
        obtain ⟨r, bus, elapsed, status, gone⟩ := awaits.underway.elapse_last last
        rw [if_pos last, elapse_eq elapsed (Nat.le_add_right ..)]
        have ended := awaits.ended (b.now + b.bus.link.settings.latency) gone status
        exact ⟨r, (ended.run moves).symm ▸ ended⟩
      case neg =>
        obtain ⟨bus, completions, elapsed, next⟩ :=
          awaits.underway.elapse_lost fits (Nat.lt_of_le_of_ne within last)
        rw [if_neg last, elapse_eq elapsed (Nat.le_add_right ..)]
        rcases next with ⟨rfl, underway⟩ | ⟨r, rfl, status, gone⟩
        · have again : Awaits course (attempt + 1)
              { b with now := b.now + course.wait, bus, finished := b.finished ++ [] } :=
            ⟨underway, awaits.started, by rw [List.append_nil]; exact awaits.numbered⟩
          exact inductionHypothesis again (Nat.lt_of_le_of_ne within last) (by omega)
        · have ended := awaits.ended (b.now + course.wait) gone status
          exact ⟨r, (ended.run moves).symm ▸ ended⟩

/-- A send ends with the confirm of the last of so many executions of its command. -/
theorem Ready.send {command : Command} {wait : Option Nat} (ready : b.Ready)
    (fits : command.Fits)
    (prompt : b.bus.link.settings.latency < Channel.waitFor b.bus.channel.settings command wait)
    (more : b.bus.link.dropNext < b.bus.channel.attempts)
    (octet : b.bus.channel.settings.maximumAttempts < 256) :
    ∃ r after, b.send command wait = (some (Channel.outcomeOf r), after) ∧ after.Ready ∧
      Chip.executions b.bus.link.installed command b.bus.link.dropNext =
        (r.status, after.bus.link.installed) := by
  let course := b.bus.course b.started command wait
  obtain ⟨bus, submitted, underway⟩ := ready.rested.submit fits prompt more b.now b.started
  have started : b.start command wait = { b with started := b.started + 1, bus } := by
    simp [start, onBus, submitted]
  have awaits : Awaits course 0 (b.start command wait) := by
    rw [started]
    exact ⟨underway, rfl, ready.numbered⟩
  have enough : course.lost - 0 < patience := by
    have fewer : b.bus.channel.attempts ≤ 256 := Nat.max_le.mpr ⟨Nat.le_of_lt octet, by decide⟩
    have lost : course.lost < 256 := Nat.lt_of_lt_of_le more fewer
    exact Nat.lt_of_lt_of_le lost (by decide)
  obtain ⟨r, ended⟩ : ∃ r, Ended course r ((b.start command wait).await b.started) :=
    awaits.run fits (Nat.zero_le _) enough
  exact ⟨r, (b.start command wait).await b.started, Prod.ext ended.outcome rfl,
    ⟨ended.gone.rested, ended.numbered⟩, Prod.ext ended.status.symm ended.gone.installed.symm⟩

/-- What a sender learns: success, or the status of the chip, or why there is none. -/
def verdict (outcome : Channel.Outcome) : Except CommandError UInt32 := outcome.map (·.status)

theorem verdict_outcomeOf (r : Response) :
    verdict (Channel.outcomeOf r) =
      if r.status = 0 then .ok 0 else .error (.deviceError r.status) := by
  unfold Channel.outcomeOf
  split
  case isTrue success => exact congrArg Except.ok success
  case isFalse => rfl

/-- However many confirms are lost, as long as there is an attempt left for each: the send ends, the
chip holds the same agreements as if none were lost, and the sender is told the same, unless it
removed an agreement. Then the removal, which succeeds when no confirm is lost, is reported as
invalid. -/
theorem retransmission_transparent_unless_removes (command : Command) (wait : Option Nat)
    (lost : Nat) (ready : b.Ready) (fits : command.Fits)
    (prompt : b.bus.link.settings.latency < Channel.waitFor b.bus.channel.settings command wait)
    (more : lost < b.bus.channel.attempts)
    (octet : b.bus.channel.settings.maximumAttempts < 256) :
    let removes := Chip.removes b.bus.link.installed command
    let lossy := (b.withChip (·.drop lost)).send command wait
    let lossless := (b.withChip (·.drop 0)).send command wait
    lossy.2.bus.link.installed = lossless.2.bus.link.installed ∧
      lossless.1.isSome = true ∧
      (removes = true → lossless.1.map verdict = some (.ok 0)) ∧
      lossy.1.map verdict =
        if 0 < lost ∧ removes = true then some (.error (.deviceError Chip.statusInvalid))
        else lossless.1.map verdict := by
  have rested (count : Nat) : (b.withChip (·.drop count)).Ready :=
    ⟨{ ready.rested with }, ready.numbered⟩
  have first : 0 < b.bus.channel.attempts := Nat.lt_of_lt_of_le Nat.one_pos (Nat.le_max_right ..)
  obtain ⟨r, after, sent, -, executed⟩ := (rested lost).send fits prompt more octet
  obtain ⟨r', after', sent', -, executed'⟩ := (rested 0).send fits prompt first octet
  obtain ⟨status, installed⟩ := Prod.mk.inj (executed.symm.trans (Chip.executions_eq ..))
  obtain ⟨status', installed'⟩ := Prod.mk.inj executed'.symm
  intro removes lossy lossless
  have lossyEnd : lossy = (some (Channel.outcomeOf r), after) := sent
  have losslessEnd : lossless = (some (Channel.outcomeOf r'), after') := sent'
  rw [lossyEnd, losslessEnd]
  refine ⟨installed.trans installed'.symm, rfl, fun removed => ?_, ?_⟩
  · have success : r'.status = 0 := status'.trans (Chip.status_of_removes removed)
    simp [verdict_outcomeOf, success]
  · change r.status = if 0 < lost ∧ removes = true then Chip.statusInvalid else _ at status
    by_cases exception : 0 < lost ∧ removes = true
    case pos =>
      rw [if_pos exception] at status ⊢
      simp [verdict_outcomeOf, status, Chip.statusInvalid]
    case neg =>
      rw [if_neg exception] at status ⊢
      simp only [Option.map_some, verdict_outcomeOf, status, status']
      rfl

/-- A bench whose chip holds an agreement. -/
def holdingOne : Bench Chip := (ofChip {} {}).withChip (·.holding [((0, 0), [1])])

theorem ready_holdingOne : holdingOne.Ready := ready_ofChip {} rfl _

/-- An agreement that is replaced by another one is replaced in the same way when the first confirm
is lost. -/
theorem retransmission_transparent_unless_removes_replaced :
    let command : Command := .install 0 0 [2]
    let lossy := (holdingOne.withChip (·.drop 1)).send command none
    let lossless := (holdingOne.withChip (·.drop 0)).send command none
    lossy.2.bus.link.installed = lossless.2.bus.link.installed ∧
      lossy.1.map verdict = lossless.1.map verdict := by
  intro command lossy lossless
  obtain ⟨installed, -, -, verdicts⟩ :=
    retransmission_transparent_unless_removes command none 1 ready_holdingOne (by decide)
      (by decide) (by decide) (by decide)
  exact ⟨installed, verdicts⟩

/-- A removal whose first confirm is lost is reported as invalid, though it was carried out. -/
theorem retransmission_not_transparent :
    ¬ ∀ (b : Bench Chip) (command : Command) (wait : Option Nat) (lost : Nat), b.Ready →
      command.Fits →
      b.bus.link.settings.latency < Channel.waitFor b.bus.channel.settings command wait →
      lost < b.bus.channel.attempts → b.bus.channel.settings.maximumAttempts < 256 →
      ((b.withChip (·.drop lost)).send command wait).1.map verdict =
        ((b.withChip (·.drop 0)).send command wait).1.map verdict := by
  intro transparent
  have same := transparent holdingOne (.remove 0 0) none 1 ready_holdingOne (by decide) (by decide)
    (by decide) (by decide)
  exact absurd (congrArg (·.any (·.isOk)) same) (by decide +kernel)

end TargetWakeTime.Simulation.Bench
