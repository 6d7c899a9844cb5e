import TargetWakeTime.Proofs.Host.Attempts

/-!
Contract: who listens to the slot of the send that has the channel.

Owns:
- the two ways in which an attempt is over without an answer: it timed out, or the link refused its
  frame;
- that a slot which is listened to belongs to an attempt under way, or to one that is over in one of
  these ways;
- that losing the link is noticed by every send that waits.

The slot of an attempt stays outstanding until the next one, or until the send leaves the channel. A
confirm that comes in between is accepted, though nobody reads it.
-/

namespace TargetWakeTime.Host.Channel

variable {s after : Session} {move : Move} {reaction : Reaction} {e : Exchange Nat}
  {c : Channel Nat}

/-- Whether the last attempt of a send timed out: another one is about to begin, or there is none
left. -/
def Exchange.timedOut (e : Exchange Nat) : Bool :=
  match e.stage with
  | .ready => decide (0 < e.attempt)
  | .ending (.error .timeout) => true
  | _ => false

/-- Whether a send ends in the way in which it does when the link refuses its frame. -/
def Exchange.turnedDown (e : Exchange Nat) : Bool :=
  match e.stage with
  | .ending (.error .noTransport) | .ending (.error .allocationFailure) => true
  | _ => false

theorem turnedDown_of_linkError {error : LinkError}
    (refused : e.stage = .ending (.error error.toCommandError)) : e.turnedDown = true := by
  rw [Exchange.turnedDown, refused]
  cases error <;> rfl

theorem not_timedOut_of_isWaiting (waits : e.stage.isWaiting = true) :
    e.timedOut = false ∧ e.turnedDown = false := by
  obtain ⟨deadline, waiting⟩ := stage_of_isWaiting waits
  exact ⟨by rw [Exchange.timedOut, waiting], by rw [Exchange.turnedDown, waiting]⟩

theorem not_turnedDown_of_timedOut (timedOut : e.timedOut = true) : e.turnedDown = false := by
  unfold Exchange.timedOut at timedOut
  unfold Exchange.turnedDown
  split at timedOut
  case h_1 ready => rw [ready]
  case h_2 timeout => rw [timeout]
  case h_3 => cases timedOut

/-- What a session keeps to at any time about the slot that is listened to. -/
structure Session.Attentive (s : Session) : Prop where
  /-- A command that was sent before has a frame. -/
  framed : ∀ e, s.channel.exchange = some e → 0 < e.attempt ∨ e.stage.isOut = true →
    e.command.Fits
  listening : ∀ slot e, s.channel.outstanding = some slot → slot.listening = true →
    s.channel.exchange = some e →
      e.stage.isOpen = true ∨ e.timedOut = true ∨ e.turnedDown = true

theorem attentive_start (settings : Settings) :
    Session.Attentive { channel := { settings } } where
  framed _ found := by cases found
  listening _ _ found := by cases found

theorem isOut_leave (mailbox : Mailbox) : (e.leave mailbox).stage.isOut = e.stage.isOut := by
  unfold Exchange.leave
  split
  case h_1 deadline waits =>
    rw [waits]
    rfl
  case h_2 => rfl

theorem attempt_leave (mailbox : Mailbox) : (e.leave mailbox).attempt = e.attempt := by
  unfold Exchange.leave
  split <;> rfl

/-- A completed slot is listened to no more. -/
theorem attentive_complete {slot : Outstanding} {mailbox : Mailbox} (attentive : s.Attentive) :
    Session.Attentive { s with channel := s.channel.complete slot mailbox } where
  framed e' left sent := by
    obtain ⟨e, found, rfl⟩ := Option.map_eq_some_iff.mp left
    rw [attempt_leave, isOut_leave] at sent
    rw [toPending_leave]
    exact attentive.framed e found sent
  listening slot' e' completed listening := by
    obtain rfl := Option.some.inj completed
    cases listening

/-- A send that comes to an end leaves its slot alone. -/
theorem attentive_ending {stats : Stats} {outcome : Outcome} (attentive : s.Attentive)
    (found : s.channel.exchange = some e)
    (heard : ∀ slot, s.channel.outstanding = some slot → slot.listening = true →
      Exchange.timedOut { e with stage := .ending outcome } = true ∨
        Exchange.turnedDown { e with stage := .ending outcome } = true) :
    Session.Attentive
      { s with channel :=
        { s.channel with stats, exchange := some { e with stage := .ending outcome } } } where
  framed e' moved sent := by
    obtain rfl := Option.some.inj moved
    refine attentive.framed e found (sent.imp_right fun out => ?_)
    cases out
  listening slot e' outstanding listening moved := by
    obtain rfl := Option.some.inj moved
    exact .inr (heard slot outstanding listening)

/-- Whoever listens to the slot of a send that is about to make its frame has had one before. -/
theorem Session.Attentive.fits_of_ready {slot : Outstanding} (attentive : s.Attentive)
    (found : s.channel.exchange = some e) (ready : e.stage = .ready)
    (outstanding : s.channel.outstanding = some slot) (listening : slot.listening = true) :
    e.command.Fits := by
  rcases attentive.listening slot e outstanding listening found with isOpen | again | refused
  · rw [ready] at isOpen
    cases isOpen
  · rw [Exchange.timedOut, ready] at again
    exact attentive.framed e found (.inl (of_decide_eq_true again))
  · rw [Exchange.turnedDown, ready] at refused
    cases refused

/-- Nobody listens to the slot of a send that something was left for. -/
theorem Session.Attentive.not_listening {slot : Outstanding} {deadline : Nat} {mailbox : Mailbox}
    (attentive : s.Attentive) (found : s.channel.exchange = some e)
    (left : e.stage = .waiting deadline mailbox) (something : mailbox ≠ .empty)
    (outstanding : s.channel.outstanding = some slot) : slot.listening = false := by
  refine Bool.eq_false_iff.mpr fun listening => ?_
  rcases attentive.listening slot e outstanding listening found with isOpen | again | refused
  · rw [left] at isOpen
    cases mailbox with
    | empty => exact something rfl
    | holds | closed => cases isOpen
  · rw [Exchange.timedOut, left] at again
    cases again
  · rw [Exchange.turnedDown, left] at refused
    cases refused

theorem attentive_of_advanced (attentive : s.Attentive) (found : s.channel.exchange = some e)
    (step : Advanced s e move after reaction) : after.Attentive := by
  cases step with
  | unframed ready failed =>
      refine attentive_ending attentive found fun slot outstanding listening => ?_
      have fits := attentive.fits_of_ready found ready outstanding listening
      obtain ⟨frame, made, -⟩ := Command.exists_frame fits (HostId.of e.sequence e.attempt)
      cases failed.symm.trans made
  | launched ready made =>
      refine ⟨fun e' moved _ => ?_, fun slot e' _ _ moved => ?_⟩
      · obtain rfl := Option.some.inj moved
        obtain ⟨payload, paid, -⟩ := Command.encode_eq_ok_iff.mp made
        exact Command.fits_of_payload paid
      · obtain rfl := Option.some.inj moved
        exact .inl rfl
  | refused inHand =>
      exact attentive_ending attentive found fun _ _ _ => .inr (turnedDown_of_linkError rfl)
  | passed inHand =>
      refine ⟨fun e' moved _ => ?_, fun slot e' _ _ moved => ?_⟩
      · obtain rfl := Option.some.inj moved
        exact attentive.framed e found (.inr (by rw [inHand]; rfl))
      · obtain rfl := Option.some.inj moved
        exact .inl rfl
  | resumed holds =>
      refine attentive_ending attentive found fun slot outstanding listening => ?_
      cases (attentive.not_listening found holds (by simp) outstanding).symm.trans listening
  | cutOff closed =>
      refine attentive_ending attentive found fun slot outstanding listening => ?_
      cases (attentive.not_listening found closed (by simp) outstanding).symm.trans listening
  | retried waits =>
      refine ⟨fun e' moved _ => ?_, fun slot e' _ _ moved => ?_⟩
      · obtain rfl := Option.some.inj moved
        exact attentive.framed e found (.inr (by rw [waits]; rfl))
      · obtain rfl := Option.some.inj moved
        exact .inr (.inl (decide_eq_true (Nat.succ_pos e.attempt)))
  | exhausted => exact attentive_ending attentive found fun _ _ _ => .inl rfl
  | left => exact ⟨fun e none => (by cases none), fun slot e none => (by cases none)⟩

/-- Every move leaves a session attentive. -/
theorem attentive_of_act (coherent : s.Coherent) (attentive : s.Attentive)
    (possible : s.act? move = some (after, reaction)) : after.Attentive := by
  cases own : move.isOwn with
  | true =>
      obtain ⟨e, found, step⟩ := advanced own possible
      exact attentive_of_advanced attentive found step
  | false =>
      cases acted possible with
      | hungUp | confirmed => exact attentive_complete attentive
      | taken free =>
          have nobody := coherent.outstanding_of_free free
          refine ⟨fun e found sent => ?_, fun slot e outstanding => ?_⟩
          · obtain rfl := Option.some.inj found
            simp [Stage.isOut] at sent
          · cases nobody.symm.trans outstanding
      | submitted | attached | unlinked | unheard | unsolicited | stale | turnedAway =>
          exact ⟨attentive.framed, attentive.listening⟩
      | launched | left => cases own
      | staged isOwn => cases own.symm.trans isOwn

/-! ### What a completed slot does to its send -/

/-- A send that waits takes what is left. -/
theorem exchange_complete_of_waiting {slot : Outstanding} {deadline : Nat} (mailbox : Mailbox)
    (found : c.exchange = some e) (waiting : e.stage = .waiting deadline .empty) :
    (c.complete slot mailbox).exchange = some { e with stage := .waiting deadline mailbox } := by
  rw [complete, found, Option.map_some, Exchange.leave, waiting]

/-- A send that does not wait takes nothing. -/
theorem exchange_complete_of_busy {slot : Outstanding} (mailbox : Mailbox)
    (found : c.exchange = some e) (busy : e.stage.isWaiting = false) :
    (c.complete slot mailbox).exchange = c.exchange := by
  rw [complete, found, Option.map_some, leave_of_not_isWaiting mailbox busy]

theorem isWaiting_of_isOpen {stage : Stage} (isOpen : stage.isOpen = true)
    (notInHand : stage ≠ .inHand) : stage.isWaiting = true := by
  cases stage with
  | waiting deadline mailbox => cases mailbox <;> first | rfl | cases isOpen
  | inHand => exact absurd rfl notInHand
  | ready | ending => cases isOpen

/-- The slot of a send that waits is listened to when the link is lost. -/
theorem not_isWaiting_of_unheard (coherent : s.Coherent)
    (possible : s.act? .hangUp = some (s, .quiet)) (found : s.channel.exchange = some e) :
    e.stage.isWaiting = false := by
  refine Bool.eq_false_iff.mpr fun waits => ?_
  obtain ⟨deadline, waiting⟩ := stage_of_isWaiting waits
  have listened := coherent.listened e found (by rw [waiting]; rfl)
  rw [Session.act?] at possible
  split at possible
  case isTrue => cases possible
  case isFalse =>
    have same : s.channel.hangUp = s.channel :=
      congrArg (·.1.channel) (Option.some.inj possible)
    rw [hangUp, listened] at same
    change s.channel.complete _ .closed = s.channel at same
    have closed := congrArg (·.exchange) same
    simp only [exchange_complete_of_waiting .closed found waiting, found] at closed
    cases waiting.symm.trans (congrArg (·.stage) (Option.some.inj closed)).symm

end TargetWakeTime.Host.Channel
