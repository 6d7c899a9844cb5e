import TargetWakeTime.Proofs.Host.Callers
import TargetWakeTime.Proofs.Host.Session

/-!
Contract: confirms reach the sends they belong to, whatever happens in whatever order.

Owns:
- what a session keeps to at any time: who has the channel, whose slot is outstanding, and when the
  slot is listened to;
- the views of a history: the sends that took the channel, how sends ended, the confirms that came
  for a send while it waited, and those that came for nobody;
- that the sends answered by the chip are those that a confirm came for, one confirm each, and that
  a confirm for nobody changes nothing but its count.

Sequence numbers repeat after 4095 sends: a confirm belongs to a send by the number alone.
-/

namespace TargetWakeTime.Host.Channel

/-! ### At any time -/

structure Session.Coherent (s : Session) : Prop where
  queued : ∀ p ∈ s.channel.queue, s.commands[p.caller]? = some p.command
  current : ∀ e, s.channel.exchange = some e → s.commands[e.caller]? = some e.command
  /-- The send that has the channel has the sequence number last given out. -/
  numbered : ∀ e, s.channel.exchange = some e → e.sequence = s.channel.sequence ∧
    1 ≤ e.sequence ∧ e.sequence ≤ HostId.maximumSequence
  /-- The slot is that of the send that has the channel. -/
  ownSlot : ∀ slot, s.channel.outstanding = some slot → ∃ e, s.channel.exchange = some e ∧
    slot.message = e.command.message ∧ slot.hostId.sequence.val = e.sequence
  /-- The slot is listened to while a transmission is under way. -/
  listened : ∀ e, s.channel.exchange = some e → e.stage.isOpen = true →
    s.channel.outstanding = some
      { message := e.command.message, hostId := HostId.of e.sequence e.attempt, listening := true }

variable {s after : Session} {move : Move} {reaction : Reaction}

/-- Without an exchange no slot is outstanding. -/
theorem Session.Coherent.outstanding_of_free (coherent : s.Coherent)
    (free : s.channel.exchange = none) : s.channel.outstanding = none := by
  rw [Option.eq_none_iff_forall_ne_some]
  intro slot outstanding
  obtain ⟨e, found, -⟩ := coherent.ownSlot slot outstanding
  cases free.symm.trans found

/-! ### What is left for an exchange -/

@[simp] theorem toPending_leave {Caller : Type} (e : Exchange Caller) (mailbox : Mailbox) :
    (e.leave mailbox).toPending = e.toPending := by
  unfold Exchange.leave
  split <;> rfl

@[simp] theorem sequence_leave {Caller : Type} (e : Exchange Caller) (mailbox : Mailbox) :
    (e.leave mailbox).sequence = e.sequence := by
  unfold Exchange.leave
  split <;> rfl

theorem stage_of_isWaiting {stage : Stage} (waits : stage.isWaiting = true) :
    ∃ deadline, stage = .waiting deadline .empty := by
  cases stage with
  | waiting deadline mailbox =>
      cases mailbox with
      | empty => exact ⟨deadline, rfl⟩
      | holds | closed => cases waits
  | ready | inHand | ending => cases waits

/-- A send that waits finds what is left. -/
theorem stage_leave {Caller : Type} {e : Exchange Caller} {deadline : Nat} (mailbox : Mailbox)
    (waits : e.stage = .waiting deadline .empty) :
    (e.leave mailbox).stage = .waiting deadline mailbox := by
  rw [Exchange.leave, waits]

/-- A send that does not wait takes no notice. -/
theorem leave_of_not_isWaiting {Caller : Type} {e : Exchange Caller} (mailbox : Mailbox)
    (busy : e.stage.isWaiting = false) : e.leave mailbox = e := by
  unfold Exchange.leave
  split
  case h_1 deadline waits =>
    rw [waits] at busy
    cases busy
  case h_2 => rfl

theorem ne_inHand_of_unlocked {c : Channel Nat} {e : Exchange Nat} (unlocked : c.locked = false)
    (found : c.exchange = some e) : e.stage ≠ .inHand := by
  intro inHand
  obtain ⟨toPending, sequence, attempt, stage⟩ := e
  cases inHand
  rw [locked, found] at unlocked
  cases unlocked

/-- Nothing is left for an exchange while the link has its frame in hand, so afterwards it waits for
nothing more. -/
theorem isOpen_leave {e : Exchange Nat} {mailbox : Mailbox} (notInHand : e.stage ≠ .inHand)
    (something : mailbox ≠ .empty) : (e.leave mailbox).stage.isOpen = false := by
  cases waits : e.stage.isWaiting with
  | true =>
      obtain ⟨deadline, stage⟩ := stage_of_isWaiting waits
      rw [stage_leave mailbox stage]
      cases mailbox with
      | empty => exact absurd rfl something
      | holds | closed => rfl
  | false =>
      rw [leave_of_not_isWaiting mailbox waits]
      cases stage : e.stage with
      | inHand => exact absurd stage notInHand
      | ready | ending => rfl
      | waiting deadline left =>
          cases left with
          | empty =>
              rw [stage] at waits
              cases waits
          | holds | closed => rfl

/-! ### Steps keep a session coherent -/

theorem coherent_complete {slot : Outstanding} {mailbox : Mailbox} (coherent : s.Coherent)
    (unlocked : s.channel.locked = false) (found : s.channel.outstanding = some slot)
    (something : mailbox ≠ .empty) :
    Session.Coherent { s with channel := s.channel.complete slot mailbox } where
  queued := coherent.queued
  current e' left := by
    obtain ⟨e, before, rfl⟩ := Option.map_eq_some_iff.mp left
    rw [toPending_leave]
    exact coherent.current e before
  numbered e' left := by
    obtain ⟨e, before, rfl⟩ := Option.map_eq_some_iff.mp left
    rw [sequence_leave]
    exact coherent.numbered e before
  ownSlot slot' completed := by
    obtain ⟨e, before, sameMessage, sameSequence⟩ := coherent.ownSlot slot found
    obtain rfl := Option.some.inj completed
    refine ⟨e.leave mailbox, by simp [complete, before], ?_, ?_⟩
    · rw [toPending_leave]
      exact sameMessage
    · rw [sequence_leave]
      exact sameSequence
  listened e' left isOpen := by
    obtain ⟨e, before, rfl⟩ := Option.map_eq_some_iff.mp left
    rw [isOpen_leave (ne_inHand_of_unlocked unlocked before) something] at isOpen
    cases isOpen

/-- The commands of earlier sends keep their numbers. -/
theorem getElem?_append_of_some {commands : List Command} {number : Nat} {command : Command}
    (found : commands[number]? = some command) (new : Command) :
    (commands ++ [new])[number]? = some command := by
  rw [List.getElem?_append_left (List.getElem?_eq_some_iff.mp found).1, found]

theorem coherent_submit (coherent : s.Coherent) (command : Command) (wait : Option Nat) :
    Session.Coherent
      { channel := s.channel.submit s.commands.length command wait
        commands := s.commands ++ [command] } where
  queued p member := by
    rcases List.mem_append.mp member with earlier | new
    · exact getElem?_append_of_some (coherent.queued p earlier) command
    · rw [List.mem_singleton.mp new]
      exact List.getElem?_concat_length
  current e found := getElem?_append_of_some (coherent.current e found) command
  numbered := coherent.numbered
  ownSlot := coherent.ownSlot
  listened := coherent.listened

/-- Sequence numbers fit their field. -/
theorem val_sequence_of {sequence : Nat} (attempt : Nat)
    (fits : sequence ≤ HostId.maximumSequence) :
    (HostId.of sequence attempt).sequence.val = sequence := by
  rw [HostId.of, Bit.val_lowTwelve]
  exact Nat.mod_eq_of_lt (Nat.lt_succ_of_le fits)

/-- Every move leaves a session coherent. -/
theorem coherent_of_acted (coherent : s.Coherent) (step : Acted s move after reaction) :
    after.Coherent := by
  cases step with
  | submitted command wait => exact coherent_submit coherent command wait
  | attached | unlinked | stale =>
      exact ⟨coherent.queued, coherent.current, coherent.numbered, coherent.ownSlot,
        coherent.listened⟩
  | unheard => exact coherent
  | unsolicited => exact coherent
  | hungUp unlocked found => exact coherent_complete coherent unlocked found (by simp)
  | confirmed unlocked _ found => exact coherent_complete coherent unlocked found (by simp)
  | @taken next rest free queued =>
      have nobody := coherent.outstanding_of_free free
      refine ⟨fun p member => ?_, fun e found => ?_, fun e found => ?_, fun slot found => ?_,
        fun e found isOpen => ?_⟩
      · exact coherent.queued p (by rw [queued]; exact List.mem_cons_of_mem _ member)
      · obtain rfl := Option.some.inj found
        exact coherent.queued next (by rw [queued]; exact List.mem_cons_self)
      · obtain rfl := Option.some.inj found
        exact ⟨rfl, nextSequence_mem s.channel.sequence⟩
      · cases nobody.symm.trans found
      · obtain rfl := Option.some.inj found
        cases isOpen
  | turnedAway free queued =>
      refine ⟨fun p member => ?_, coherent.current, coherent.numbered, coherent.ownSlot,
        coherent.listened⟩
      exact coherent.queued p (by rw [queued]; exact List.mem_cons_of_mem _ member)
  | @launched e _ found =>
      have numbered := coherent.numbered e found
      refine ⟨coherent.queued, fun next moved => ?_, fun next moved => ?_, fun slot placed => ?_,
        fun next moved _ => ?_⟩
      · obtain rfl := Option.some.inj moved
        exact coherent.current e found
      · obtain rfl := Option.some.inj moved
        exact numbered
      · obtain rfl := Option.some.inj placed
        exact ⟨_, rfl, rfl, val_sequence_of e.attempt numbered.2.2⟩
      · obtain rfl := Option.some.inj moved
        rfl
  | @staged _ e attempt stage _ own found staysOpen =>
      refine ⟨coherent.queued, fun next moved => ?_, fun next moved => ?_,
        fun slot outstanding => ?_, fun next moved isOpen => ?_⟩
      · obtain rfl := Option.some.inj moved
        exact coherent.current e found
      · obtain rfl := Option.some.inj moved
        exact coherent.numbered e found
      · obtain ⟨before, same, sameMessage, sameSequence⟩ := coherent.ownSlot slot outstanding
        cases found.symm.trans same
        exact ⟨_, rfl, sameMessage, sameSequence⟩
      · obtain rfl := Option.some.inj moved
        obtain ⟨wasOpen, rfl⟩ := staysOpen isOpen
        exact coherent.listened e found wasOpen
  | left =>
      exact ⟨coherent.queued, fun e none => (by cases none), fun e none => (by cases none),
        fun slot none => (by cases none), fun e none => (by cases none)⟩

/-! ### Views of a history -/

/-- The send that takes the channel in a step, or is turned away from it. -/
def Step.taken? (step : Step) : Option Nat :=
  match step.move with
  | .take => step.before.channel.queue.head?.map (·.caller)
  | _ => none

/-- How a send ends in a step. -/
def Step.ended? (step : Step) : Option (Nat × Outcome) :=
  match step.reaction with
  | .signal (.done number outcome) => some (number, outcome)
  | _ => none

/-- Whether a response confirms the command of a send: its message and its sequence number, on
whatever transmission. -/
def Session.Confirms (s : Session) (e : Exchange Nat) (r : Response) : Prop :=
  r.isConfirm = true ∧ (s.commands[e.caller]?).map (·.message.code) = some r.header.message ∧
    r.header.hostId.sequence.val = e.sequence

instance (s : Session) (e : Exchange Nat) (r : Response) : Decidable (s.Confirms e r) :=
  inferInstanceAs (Decidable (_ ∧ _ ∧ _))

/-- The send that waits while a response comes in a step that confirms its command. -/
def Step.answered? (step : Step) : Option (Nat × Response) :=
  match step.move, step.before.channel.exchange with
  | .receive r, some e =>
      if e.stage.isWaiting = true ∧ step.before.Confirms e r then some (e.caller, r) else none
  | _, _ => none

/-- Whether a confirm comes in a step that no outstanding slot waits for. -/
def Step.isStale (step : Step) : Bool :=
  match step.move with
  | .receive r =>
      r.isConfirm &&
        !step.before.channel.outstanding.any fun slot => slot.listening && slot.answeredBy r
  | _ => false

/-- The send that has the channel and was answered by the chip, with the end that it is to come to. -/
def pending (c : Channel Nat) : List (Nat × Outcome) :=
  c.exchange.toList.filterMap fun e => e.stage.verdict?.map (e.caller, ·)

namespace History

/-- The sends that took the channel or were turned away from it, in order. -/
def taken (h : History) : List Nat := h.log.filterMap Step.taken?

/-- How sends ended, in order. -/
def ended (h : History) : List (Nat × Outcome) := h.log.filterMap Step.ended?

/-- The confirms that came for a send while it waited, in order. -/
def answered (h : History) : List (Nat × Response) := h.log.filterMap Step.answered?

end History

/-! ### What one step adds -/

variable {h : History} {step : Step}

theorem filterMap_concat {α : Type} (view : Step → Option α) (log : List Step)
    (step : Step) : (log ++ [step]).filterMap view = log.filterMap view ++ (view step).toList := by
  rw [List.filterMap_append]
  cases seen : view step <;> simp [seen]

@[simp] theorem taken_record : (h.record step).taken = h.taken ++ step.taken?.toList :=
  filterMap_concat ..

@[simp] theorem ended_record : (h.record step).ended = h.ended ++ step.ended?.toList :=
  filterMap_concat ..

@[simp] theorem answered_record :
    (h.record step).answered = h.answered ++ step.answered?.toList :=
  filterMap_concat ..

/-- A send's own moves neither take the channel nor bring a response. -/
theorem views_of_isOwn {step : Step} (own : step.move.isOwn = true) :
    step.taken? = none ∧ step.answered? = none ∧ step.isStale = false := by
  obtain ⟨before, move, after, reaction⟩ := step
  cases move
  case proceed | transmitted | resume | expire => exact ⟨rfl, rfl, rfl⟩
  all_goals cases own

/-- Sends take the channel in the order of their submission. -/
theorem inOrder_record
    (inOrder : h.taken ++ h.session.channel.queue.map (·.caller) =
      List.range h.session.commands.length)
    (step : Acted h.session move after reaction) :
    (h.record ⟨h.session, move, after, reaction⟩).taken ++ after.channel.queue.map (·.caller) =
      List.range after.commands.length := by
  rw [taken_record]
  cases step with
  | submitted command wait => simp [Step.taken?, submit, List.range_succ, ← inOrder]
  | taken free queued => simpa [Step.taken?, queued] using inOrder
  | turnedAway free queued => simpa [Step.taken?, queued] using inOrder
  | staged own =>
      rw [(views_of_isOwn (by exact own)).1]
      simpa using inOrder
  | attached | unlinked | unheard | hungUp | unsolicited | stale | confirmed | launched | left =>
      simpa [Step.taken?, complete] using inOrder

/-- No send takes the channel twice. -/
theorem nodup_taken
    (inOrder : h.taken ++ h.session.channel.queue.map (·.caller) =
      List.range h.session.commands.length) : h.taken.Nodup := by
  have numbers : (List.range h.session.commands.length).Nodup := List.nodup_range
  rw [← inOrder] at numbers
  exact (List.nodup_append.mp numbers).1

/-- The channel passes on when the send that has it ends. -/
theorem oneAtATime_record
    (oneAtATime : h.taken = h.ended.map (·.1) ++ h.session.channel.exchange.toList.map (·.caller))
    (step : Acted h.session move after reaction) :
    (h.record ⟨h.session, move, after, reaction⟩).taken =
      (h.record ⟨h.session, move, after, reaction⟩).ended.map (·.1) ++
        after.channel.exchange.toList.map (·.caller) := by
  rw [taken_record, ended_record, oneAtATime]
  cases step with
  | taken free queued => simp [Step.taken?, Step.ended?, free, queued]
  | turnedAway free queued => simp [Step.taken?, Step.ended?, free, queued]
  | hungUp => simp [Step.taken?, Step.ended?, map_caller_complete]
  | confirmed => simp [Step.taken?, Step.ended?, map_caller_complete]
  | launched found => simp [Step.taken?, Step.ended?, found]
  | staged own found =>
      rw [(views_of_isOwn (by exact own)).1]
      simp [Step.ended?, found]
  | left found => simp [Step.taken?, Step.ended?, found]
  | submitted | attached | unlinked | unheard | unsolicited | stale =>
      simp [Step.taken?, Step.ended?, submit]

/-! ### Confirms and ends -/

/-- A slot of a send matches the confirms of its command. -/
theorem answeredBy_iff {e : Exchange Nat} {slot : Outstanding} {r : Response}
    (numbered : s.commands[e.caller]? = some e.command)
    (sameMessage : slot.message = e.command.message)
    (sameSequence : slot.hostId.sequence.val = e.sequence) (confirms : r.isConfirm = true) :
    slot.answeredBy r = true ↔ s.Confirms e r := by
  simp only [Outstanding.answeredBy, HostId.sameSequence, Session.Confirms, confirms, numbered,
    sameMessage, ← sameSequence, Bool.and_eq_true, beq_iff_eq, Option.map_some, Option.some.injEq,
    true_and, Fin.val_inj]
  exact and_congr_right fun _ => eq_comm

/-- A confirm for a send that waits finds its slot. -/
theorem Session.Coherent.exists_slot {e : Exchange Nat} {r : Response} (coherent : s.Coherent)
    (found : s.channel.exchange = some e) (waits : e.stage.isWaiting = true)
    (confirms : s.Confirms e r) :
    ∃ slot, s.channel.outstanding = some slot ∧ slot.listening = true ∧ slot.answeredBy r = true := by
  obtain ⟨deadline, stage⟩ := stage_of_isWaiting waits
  refine ⟨_, coherent.listened e found (by rw [stage]; rfl), rfl, ?_⟩
  have sameSequence := val_sequence_of e.attempt (coherent.numbered e found).2.2
  exact (answeredBy_iff (coherent.current e found) rfl sameSequence confirms.1).mpr confirms

theorem answered?_of_exchange {e : Exchange Nat} {r : Response}
    (found : s.channel.exchange = some e) :
    Step.answered? ⟨s, .receive r, after, reaction⟩ =
      if e.stage.isWaiting = true ∧ s.Confirms e r then some (e.caller, r) else none := by
  rw [Step.answered?]
  simp only [found]

/-- A response that confirms nobody's command answers nobody. -/
theorem answered?_eq_none {r : Response}
    (nobody : ∀ e, s.channel.exchange = some e → e.stage.isWaiting = true → ¬ s.Confirms e r) :
    Step.answered? ⟨s, .receive r, after, reaction⟩ = none := by
  cases found : s.channel.exchange with
  | none =>
      rw [Step.answered?]
      simp only [found]
  | some e =>
      rw [answered?_of_exchange found, if_neg fun both => nobody e found both.1 both.2]

theorem Session.Coherent.exists_slot_of_answered? {number : Nat} {r : Response}
    (coherent : s.Coherent)
    (answered : Step.answered? ⟨s, move, after, reaction⟩ = some (number, r)) :
    ∃ slot, s.channel.outstanding = some slot ∧ slot.listening = true ∧
      slot.answeredBy r = true := by
  unfold Step.answered? at answered
  split at answered
  case h_1 response e isReceive found =>
    split at answered
    case isTrue both =>
      cases answered
      exact coherent.exists_slot found both.1 both.2
    case isFalse => cases answered
  case h_2 => cases answered

theorem pending_of_exchange {c : Channel Nat} {e : Exchange Nat} (found : c.exchange = some e) :
    pending c = (e.stage.verdict?.map (e.caller, ·)).toList := by
  rw [pending, found]
  cases verdict : e.stage.verdict? <;> simp [verdict]

theorem pending_of_free {c : Channel Nat} (free : c.exchange = none) : pending c = [] := by
  rw [pending, free]
  rfl

/-- What is left for an exchange adds to the pending ends only if the exchange waits. -/
theorem pending_complete {c : Channel Nat} {e : Exchange Nat} {slot : Outstanding}
    (mailbox : Mailbox) (found : c.exchange = some e) :
    pending (c.complete slot mailbox) =
      if e.stage.isWaiting = true then
        ((Stage.waiting 0 mailbox).verdict?.map (e.caller, ·)).toList
      else pending c := by
  have left : (c.complete slot mailbox).exchange = some (e.leave mailbox) := by
    rw [complete, found]
    rfl
  rw [pending_of_exchange left, pending_of_exchange found, toPending_leave]
  split
  case isTrue waits =>
    obtain ⟨deadline, stage⟩ := stage_of_isWaiting waits
    rw [stage_leave mailbox stage]
    cases mailbox <;> rfl
  case isFalse busy => rw [leave_of_not_isWaiting mailbox (Bool.eq_false_iff.mpr busy)]

/-- The sends that the chip ended, and is about to end, are those that a confirm came for. -/
theorem answered_record_eq
    (answered : h.answered.map (fun a => (a.1, outcomeOf a.2)) =
      h.ended.filter (fromChip ·.2) ++ pending h.session.channel)
    (coherent : h.session.Coherent) (step : Acted h.session move after reaction) :
    (h.record ⟨h.session, move, after, reaction⟩).answered.map (fun a => (a.1, outcomeOf a.2)) =
      (h.record ⟨h.session, move, after, reaction⟩).ended.filter (fromChip ·.2) ++
        pending after.channel := by
  rw [answered_record, ended_record, List.map_append, List.filter_append, answered]
  cases step with
  | submitted | attached | unlinked | unheard => simp [Step.answered?, Step.ended?, pending, submit]
  | unsolicited event =>
      rw [answered?_eq_none fun e _ _ confirms => by cases event.symm.trans confirms.1]
      simp [Step.ended?]
  | @stale r confirms unmatched =>
      have nobody (e : Exchange Nat) (found : h.session.channel.exchange = some e)
          (waits : e.stage.isWaiting = true) : ¬ h.session.Confirms e r := by
        intro answers
        obtain ⟨slot, outstanding, listening, matched⟩ := coherent.exists_slot found waits answers
        cases (unmatched slot outstanding listening).symm.trans matched
      rw [answered?_eq_none nobody]
      simp [Step.ended?, pending]
  | @hungUp slot unlocked found =>
      obtain ⟨e, current, -⟩ := coherent.ownSlot slot found
      rw [pending_complete .closed current]
      split
      case isTrue waits =>
        obtain ⟨deadline, stage⟩ := stage_of_isWaiting waits
        simp [Step.answered?, Step.ended?, pending_of_exchange current, stage, Stage.verdict?]
      case isFalse => simp [Step.answered?, Step.ended?]
  | @confirmed r slot unlocked confirms found listening matched =>
      obtain ⟨e, current, sameMessage, sameSequence⟩ := coherent.ownSlot slot found
      have answers : h.session.Confirms e r :=
        (answeredBy_iff (coherent.current e current) sameMessage sameSequence confirms).mp matched
      rw [answered?_of_exchange current, pending_complete (.holds r) current]
      by_cases waits : e.stage.isWaiting = true
      case pos =>
        rw [if_pos ⟨waits, answers⟩, if_pos waits]
        obtain ⟨deadline, stage⟩ := stage_of_isWaiting waits
        simp [Step.ended?, pending_of_exchange current, stage, Stage.verdict?]
      case neg =>
        rw [if_neg fun both => waits both.1, if_neg waits]
        simp [Step.ended?]
  | taken free =>
      rw [pending_of_free free]
      simp [Step.answered?, Step.ended?, pending, Stage.verdict?]
  | turnedAway free =>
      simp [Step.answered?, Step.ended?, pending, fromChip, free]
  | launched found ready =>
      simp [Step.answered?, Step.ended?, pending, found, ready, Stage.verdict?]
  | staged own found _ sameVerdict =>
      rw [(views_of_isOwn (by exact own)).2.1, pending_of_exchange found, ← sameVerdict]
      simp [Step.ended?, pending_of_exchange]
  | @left e outcome found leaving =>
      rw [pending_of_exchange found, leaving, Stage.verdict?]
      cases answered : fromChip outcome <;> simp [Step.answered?, Step.ended?, pending, answered]

/-- A confirm that no slot waits for is refused, and changes nothing but the count of such
confirms. -/
theorem refused_of_isStale (step : Acted s move after reaction)
    (stale : Step.isStale ⟨s, move, after, reaction⟩ = true) :
    reaction = .answered (.error .staleResponse) ∧
      after = { s with channel :=
        { s.channel with
          stats := { s.channel.stats with stale := s.channel.stats.stale + 1 } } } := by
  cases step with
  | stale => exact ⟨rfl, rfl⟩
  | unsolicited event => simp [Step.isStale, event] at stale
  | confirmed _ confirms found listening matched =>
      simp [Step.isStale, found, listening, matched] at stale
  | staged own =>
      rw [(views_of_isOwn (by exact own)).2.2] at stale
      cases stale
  | submitted | attached | unlinked | unheard | hungUp | taken | turnedAway | launched | left =>
      cases stale

theorem staleCount_record
    (counted : h.session.channel.stats.stale = h.log.countP Step.isStale)
    (step : Acted h.session move after reaction) :
    after.channel.stats.stale =
      (h.record ⟨h.session, move, after, reaction⟩).log.countP Step.isStale := by
  rw [History.record, List.countP_append, List.countP_singleton, ← counted]
  cases step with
  | @stale r confirms unmatched =>
      have nobody : (h.session.channel.outstanding.any fun slot =>
          slot.listening && slot.answeredBy r) = false := by
        cases outstanding : h.session.channel.outstanding with
        | none => rfl
        | some slot =>
            cases listening : slot.listening with
            | false => simp [listening]
            | true => simp [unmatched slot outstanding listening]
      simp only [Step.isStale, confirms, nobody, Bool.not_false, Bool.and_self, if_true]
  | unsolicited event => simp [Step.isStale, event]
  | confirmed _ confirms found listening matched =>
      simp [Step.isStale, found, listening, matched, complete]
  | staged own _ _ _ sameStale =>
      rw [(views_of_isOwn (by exact own)).2.2]
      simpa using sameStale
  | submitted | attached | unlinked | unheard | hungUp | taken | turnedAway | launched | left =>
      simp [Step.isStale, submit, complete]

/-- What the sends and the confirms of a session have to do with each other. -/
structure Correlated (h : History) : Prop where
  /-- Sends take the channel, or are turned away from it, in the order of their submission. -/
  inOrder : h.taken ++ h.session.channel.queue.map (·.caller) =
    List.range h.session.commands.length
  /-- A send takes the channel only when all before it have ended. -/
  oneAtATime : h.taken =
    h.ended.map (·.1) ++ h.session.channel.exchange.toList.map (·.caller)
  /-- At most one slot is outstanding, and it is that of the send that has the channel. -/
  coherent : h.session.Coherent
  /-- The sends that the chip has answered, with what they are told, are exactly those that a
  confirm of their command came for while they waited; the last one may still be about to end. -/
  answered : h.answered.map (fun a => (a.1, outcomeOf a.2)) =
    h.ended.filter (fromChip ·.2) ++ pending h.session.channel
  /-- No send is answered by two confirms. -/
  once : (h.answered.map (·.1)).Nodup
  /-- A confirm that answers a send finds its slot outstanding. -/
  found : ∀ step ∈ h.log, ∀ number r, step.answered? = some (number, r) →
    ∃ slot, step.before.channel.outstanding = some slot ∧ slot.listening = true ∧
      slot.answeredBy r = true
  /-- A confirm that no slot waits for is refused, and changes nothing but the count. -/
  refused : ∀ step ∈ h.log, step.isStale = true →
    step.reaction = .answered (.error .staleResponse) ∧
      step.after = { step.before with channel :=
        { step.before.channel with
          stats :=
            { step.before.channel.stats with stale := step.before.channel.stats.stale + 1 } } }
  counted : h.session.channel.stats.stale = h.log.countP Step.isStale

/-- The sends that were answered are among those that took the channel, in the same order. -/
theorem answered_sublist_taken
    (oneAtATime : h.taken = h.ended.map (·.1) ++ h.session.channel.exchange.toList.map (·.caller))
    (answered : h.answered.map (fun a => (a.1, outcomeOf a.2)) =
      h.ended.filter (fromChip ·.2) ++ pending h.session.channel) :
    (h.answered.map (·.1)).Sublist h.taken := by
  have numbers : h.answered.map (·.1) =
      (h.answered.map fun a => (a.1, outcomeOf a.2)).map (·.1) := by
    rw [List.map_map]
    rfl
  rw [numbers, answered, oneAtATime, List.map_append]
  refine (List.filter_sublist.map _).append ?_
  cases found : h.session.channel.exchange with
  | none => simp [pending_of_free found]
  | some e =>
      rw [pending_of_exchange found]
      cases e.stage.verdict? <;> simp

theorem correlated_start (settings : Settings) :
    Correlated { session := { channel := { settings } } } where
  inOrder := rfl
  oneAtATime := rfl
  coherent := ⟨fun _ member => (by cases member), fun _ found => (by cases found),
    fun _ found => (by cases found), fun _ found => (by cases found),
    fun _ found => (by cases found)⟩
  answered := rfl
  once := List.nodup_nil
  found _ member := by cases member
  refused _ member := by cases member
  counted := rfl

theorem correlated_record (correlated : Correlated h)
    (step : Acted h.session move after reaction) :
    Correlated (h.record ⟨h.session, move, after, reaction⟩) := by
  have inOrder := inOrder_record correlated.inOrder step
  have oneAtATime := oneAtATime_record correlated.oneAtATime step
  have answered := answered_record_eq correlated.answered correlated.coherent step
  refine ⟨inOrder, oneAtATime, coherent_of_acted correlated.coherent step, answered, ?_, ?_, ?_,
    staleCount_record correlated.counted step⟩
  · exact (answered_sublist_taken oneAtATime answered).nodup (nodup_taken inOrder)
  · intro other member number r seen
    rcases List.mem_append.mp member with earlier | new
    · exact correlated.found other earlier number r seen
    · rw [List.mem_singleton.mp new] at seen ⊢
      exact correlated.coherent.exists_slot_of_answered? seen
  · intro other member stale
    rcases List.mem_append.mp member with earlier | new
    · exact correlated.refused other earlier stale
    · rw [List.mem_singleton.mp new] at stale ⊢
      exact refused_of_isStale step stale

/-! ### The chip's answer ends a send -/

/-- The channel after a step of the send that has it, if the send can make one. -/
def after? {Caller : Type} (c : Channel Caller) (moved : Option (Moved Caller)) : Channel Caller :=
  (moved.map (·.1)).getD c

theorem channel_seen (s : Session) (moved : Moved Nat) : (s.seen moved).1.channel = moved.1 := by
  obtain ⟨channel, signal⟩ := moved
  cases signal <;> rfl

theorem channel_extend {moved : Option (Moved Nat)}
    (own : h.session.act? move = moved.map h.session.seen) :
    (h.extend move).session.channel = h.session.channel.after? moved := by
  unfold History.extend
  rw [own]
  cases moved with
  | none => rfl
  | some moved => exact channel_seen h.session moved

/-- A send that has taken up what was left for it does not hold it any more. -/
theorem not_holds_of_resume {c : Channel Nat} {e : Exchange Nat} {deadline : Nat} {r : Response}
    (found : (c.after? c.resume?).exchange = some e) : e.stage ≠ .waiting deadline (.holds r) := by
  intro holds
  unfold resume? at found
  split at found
  case h_1 free =>
    cases free.symm.trans found
  case h_2 before current =>
    split at found
    case h_1 =>
      obtain rfl := Option.some.inj found
      cases holds
    case h_2 =>
      obtain rfl := Option.some.inj found
      cases holds
    case h_3 other _ =>
      cases current.symm.trans found
      exact other deadline r holds

/-- A send that the chip has answered leaves the channel once it holds the answer no longer. -/
theorem pending_proceed {c : Channel Nat}
    (takenUp : ∀ e, c.exchange = some e → ∀ deadline r, e.stage ≠ .waiting deadline (.holds r)) :
    pending (c.after? c.proceed?) = [] := by
  unfold proceed?
  split
  case h_1 free => exact pending_of_free free
  case h_2 e current =>
    split
    case h_1 ready =>
      unfold launch
      dsimp only
      split
      case h_1 error unframed =>
        simp [after?, pending, Stage.verdict?, not_fromChip_of_encode unframed]
      case h_2 => simp [after?, pending, Stage.verdict?]
    case h_2 => rfl
    case h_3 inHand => simp [after?, pending_of_exchange current, inHand, Stage.verdict?]
    case h_4 deadline mailbox waits =>
      cases mailbox with
      | holds r => exact absurd waits (takenUp e current deadline r)
      | empty | closed => simp [after?, pending_of_exchange current, waits, Stage.verdict?]

/-- Whatever senders, the receive path, the link and the clock do, in whatever order: sends and
confirms are correlated, and two steps of the send that has the channel are enough to end it once
the chip has answered it. -/
theorem correlated_history (settings : Settings) (moves : List Move) :
    Correlated (history settings moves) ∧
      pending (history settings (moves ++ [.resume, .proceed])).session.channel = [] := by
  constructor
  · exact invariant_of_act Correlated settings (correlated_start settings)
      (fun h move after reaction correlated possible => correlated_record correlated (acted possible))
      moves
  · have ended : history settings (moves ++ [.resume, .proceed]) =
        ((history settings moves).extend .resume).extend .proceed := by
      rw [history, List.foldl_append]
      rfl
    rw [ended, channel_extend rfl]
    apply pending_proceed
    intro e found deadline r
    rw [channel_extend rfl] at found
    exact not_holds_of_resume found

/-- The confirm of a transmission that was given up answers the next one, and its copy nobody. -/
example :
    let request : Header := ⟨MessageId.healthCheck.code, 0, requestFlags, 0, .of 1 0⟩
    let r := Response.confirm request 0 []
    let h := history {} [.attach, .submit .healthCheck none, .take, .proceed,
      .transmitted 0 (.ok ()), .expire 1000, .proceed, .transmitted 1000 (.ok ()), .receive r,
      .receive r, .resume, .proceed]
    h.ended = [(0, .ok r)] ∧ h.session.channel.stats = ⟨2, 1, 1, 1⟩ :=
  ⟨rfl, rfl⟩

end TargetWakeTime.Host.Channel
