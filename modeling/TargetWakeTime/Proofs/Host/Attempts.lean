import Mathlib.Data.List.Nodup
import TargetWakeTime.Proofs.Host.Numbering

/-!
Contract: the attempts of every send, over any history.

Owns:
- the frames that a send handed to the link, and the identifiers the chip reads from them;
- that these identifiers carry the sequence number of the send throughout and count its attempts
  modulo 16, so that they tell its attempts apart exactly as long as there are at most 16 of them;
- that no send makes more attempts than the settings allow, and that it has made them all when it
  ends with a timeout.

The count in an identifier has four bits, and the settings may allow more attempts than it can tell
apart. Confirms are matched without it.
-/

namespace TargetWakeTime.Host.Channel

variable {s after : Session} {h : History} {move : Move} {reaction : Reaction} {step : Step}
  {e : Exchange Nat} {attempts count number : Nat}

/-! ### Frames and identifiers -/

/-- The identifier that the chip reads from a frame. -/
def hostId? (frame : List UInt8) : Option HostId :=
  match Header.decode frame with
  | .ok (header, _) => some header.hostId
  | .error _ => none

namespace History

/-- The frames that a send handed to the link, in order. -/
def frames (h : History) (number : Nat) : List (List UInt8) :=
  (h.transmitted.filter (·.1 == number)).map (·.2)

/-- The identifiers of these frames. -/
def hostIds (h : History) (number : Nat) : List HostId := (h.frames number).filterMap hostId?

/-- Whether the identifiers of a send tell its attempts apart and count them from 0. -/
structure Distinguishable (h : History) (number : Nat) : Prop where
  apart : (h.hostIds number).Nodup
  counted : (h.hostIds number).map (·.retry.val) = List.range (h.frames number).length

end History

instance (h : History) (number : Nat) : Decidable (h.Distinguishable number) :=
  decidable_of_iff
    ((h.hostIds number).Nodup ∧
      (h.hostIds number).map (·.retry.val) = List.range (h.frames number).length)
    ⟨fun both => ⟨both.1, both.2⟩, fun both => ⟨both.apart, both.counted⟩⟩

theorem hostId?_of_encode {command : Command} {hostId : HostId} {frame : List UInt8}
    (made : command.encode hostId = .ok frame) : hostId? frame = some hostId := by
  obtain ⟨header, rest, read, same⟩ := Command.exists_header made
  rw [hostId?, read, ← same]

theorem frames_record_of_silent (silent : step.transmitted? = none) :
    (h.record step).frames = h.frames := by
  funext number
  simp [History.frames, silent]

theorem frames_record_of_transmitted {frame : List UInt8}
    (transmitted : step.transmitted? = some (number, frame)) (sender : Nat) :
    (h.record step).frames sender = h.frames sender ++ if number = sender then [frame] else [] := by
  by_cases same : number = sender <;> simp [History.frames, transmitted, same]

/-! ### Attempts of the send that has the channel -/

/-- Whether the present frame was handed to the link. -/
def Stage.isOut : Stage → Bool
  | inHand | waiting .. => true
  | ready | ending _ => false

/-- How many frames the send that has the channel handed to the link. -/
inductive Handed (attempts : Nat) (e : Exchange Nat) : Nat → Prop where
  | ready (ready : e.stage = .ready) (left : e.attempt < attempts) : Handed attempts e e.attempt
  | out (out : e.stage.isOut = true) (left : e.attempt < attempts) :
      Handed attempts e (e.attempt + 1)
  | ending {count : Nat} {outcome : Outcome} (ending : e.stage = .ending outcome)
      (bounded : count ≤ attempts) (all : outcome = .error .timeout → count = attempts) :
      Handed attempts e count

theorem Handed.of_ready (handed : Handed attempts e count) (ready : e.stage = .ready) :
    count = e.attempt ∧ e.attempt < attempts := by
  cases handed with
  | ready _ left => exact ⟨rfl, left⟩
  | out out =>
      rw [ready] at out
      cases out
  | ending ending => cases ready.symm.trans ending

theorem Handed.of_out (handed : Handed attempts e count) (out : e.stage.isOut = true) :
    count = e.attempt + 1 ∧ e.attempt < attempts := by
  cases handed with
  | ready ready =>
      rw [ready] at out
      cases out
  | out _ left => exact ⟨rfl, left⟩
  | ending ending =>
      rw [ending] at out
      cases out

theorem Handed.of_timeout (handed : Handed attempts e count)
    (timeout : e.stage = .ending (.error .timeout)) : count = attempts := by
  cases handed with
  | ready ready => cases ready.symm.trans timeout
  | out out =>
      rw [timeout] at out
      cases out
  | ending ending _ all =>
      rw [timeout] at ending
      exact all (Stage.ending.inj ending).symm

/-- What is left for a send is no frame. -/
theorem Handed.leave (handed : Handed attempts e count) (mailbox : Mailbox) :
    Handed attempts (e.leave mailbox) count := by
  unfold Exchange.leave
  split
  case h_1 deadline waits =>
    obtain ⟨rfl, left⟩ := handed.of_out (by rw [waits]; rfl)
    exact .out rfl left
  case h_2 => exact handed

/-- A send whose frame is out comes to an end with all frames handed over that it is going to have. -/
theorem Handed.ended (handed : Handed attempts e count) (out : e.stage.isOut = true)
    {outcome : Outcome} (answered : outcome ≠ .error .timeout) :
    Handed attempts { e with stage := .ending outcome } count := by
  obtain ⟨rfl, left⟩ := handed.of_out out
  exact .ending rfl left fun timeout => absurd timeout answered

theorem outcomeOf_ne_timeout (r : Response) : outcomeOf r ≠ .error .timeout := by
  unfold outcomeOf
  split <;> simp

theorem ne_timeout_of_linkError (error : LinkError) :
    (.error error.toCommandError : Outcome) ≠ .error .timeout := by
  cases error <;> simp [LinkError.toCommandError]

/-! ### Attempts of all sends -/

/-- What holds of the frames of all sends at any time. -/
structure Attempted (attempts : Nat) (h : History) : Prop where
  allowed : h.session.channel.attempts = attempts
  carried : ∀ number, h.frames number ≠ [] → ∃ sequence, h.Bears number sequence ∧
    h.hostIds number = (List.range (h.frames number).length).map (HostId.of sequence)
  bounded : ∀ number, (h.frames number).length ≤ attempts
  current : ∀ e, h.session.channel.exchange = some e →
    Handed attempts e (h.frames e.caller).length
  exhausted : ∀ number, (number, .error .timeout) ∈ h.ended → (h.frames number).length = attempts

theorem attempted_start (settings : Settings) :
    Attempted (max settings.maximumAttempts 1) { session := { channel := { settings } } } where
  allowed := rfl
  carried _ some := absurd rfl some
  bounded _ := Nat.zero_le _
  current _ found := by cases found
  exhausted _ member := by cases member

/-- The settings stay as they are. -/
theorem attempts_of_acted (step : Acted s move after reaction) :
    after.channel.attempts = s.channel.attempts := by
  cases step <;> rfl

/-- A send that still waits for the channel has handed nothing to the link. -/
theorem Attempted.frames_of_queued (attempted : Attempted attempts h) (correlated : Correlated h)
    {next : Pending Nat} (queued : next ∈ h.session.channel.queue) : h.frames next.caller = [] := by
  by_contra some
  obtain ⟨sequence, ⟨place, found, -⟩, -⟩ := attempted.carried next.caller some
  have among : h.linked.Sublist h.taken := List.filter_sublist.filterMap Step.taken?
  have numbers : (List.range h.session.commands.length).Nodup := List.nodup_range
  rw [← correlated.inOrder, List.nodup_append] at numbers
  exact numbers.2.2 next.caller (among.subset (List.mem_of_getElem? found)) next.caller
    (List.mem_map_of_mem queued) rfl

/-- A send that has the channel has not ended. -/
theorem Correlated.not_ended (correlated : Correlated h)
    (found : h.session.channel.exchange = some e) : e.caller ∉ h.ended.map (·.1) := by
  intro ended
  have distinct := nodup_taken correlated.inOrder
  rw [correlated.oneAtATime, List.nodup_append, found] at distinct
  exact distinct.2.2 e.caller ended e.caller (by simp) rfl

/-- In a step that hands nothing to the link, only the send that has the channel and the sends that
end need a look. -/
theorem attempted_of_silent (attempted : Attempted attempts h)
    (sameAttempts : after.channel.attempts = attempts)
    (silent : Step.transmitted? ⟨h.session, move, after, reaction⟩ = none)
    (current : ∀ e, after.channel.exchange = some e → Handed attempts e (h.frames e.caller).length)
    (exhausted : ∀ number,
      Step.ended? ⟨h.session, move, after, reaction⟩ = some (number, .error .timeout) →
        (h.frames number).length = attempts) :
    Attempted attempts (h.record ⟨h.session, move, after, reaction⟩) := by
  have same := frames_record_of_silent (h := h) silent
  refine ⟨sameAttempts, fun number some => ?_, ?_, ?_, fun number member => ?_⟩
  · rw [History.hostIds, same] at *
    obtain ⟨sequence, bears, ids⟩ := attempted.carried number some
    exact ⟨sequence, bears_record bears, ids⟩
  · rw [same]
    exact attempted.bounded
  · rw [same]
    exact current
  · rw [ended_record, List.mem_append, Option.mem_toList] at member
    rw [same]
    exact member.elim (attempted.exhausted number) (exhausted number)

/-- The frames of the send that has the channel carry its present sequence number. -/
theorem Attempted.hostIds_current (attempted : Attempted attempts h) (correlated : Correlated h)
    (numbered : Numbered h) (found : h.session.channel.exchange = some e) :
    h.hostIds e.caller =
      (List.range (h.frames e.caller).length).map (HostId.of e.sequence) := by
  by_cases none : h.frames e.caller = []
  case pos => simp [History.hostIds, none]
  case neg =>
    obtain ⟨sequence, bears, ids⟩ := attempted.carried e.caller none
    obtain ⟨place, there, same⟩ := numbered.current e found
    rw [ids, same, sequence_eq_of_bears correlated.nodup_linked bears there]

/-- A frame that is handed to the link carries the identifier of the next attempt. -/
theorem attempted_of_launched {frame : List UInt8} (attempted : Attempted attempts h)
    (correlated : Correlated h) (numbered : Numbered h)
    (found : h.session.channel.exchange = some e) (ready : e.stage = .ready)
    (made : e.command.encode (HostId.of e.sequence e.attempt) = .ok frame)
    (sameAttempts : after.channel.attempts = attempts)
    (moved : after.channel.exchange = some { e with stage := .inHand }) :
    Attempted attempts (h.record ⟨h.session, .proceed, after, .signal (.transmit frame)⟩) := by
  obtain ⟨length, left⟩ := (attempted.current e found).of_ready ready
  have transmitted : Step.transmitted? ⟨h.session, .proceed, after, .signal (.transmit frame)⟩ =
      some (e.caller, frame) := by
    simp only [Step.transmitted?, found]
  have frames := frames_record_of_transmitted (h := h) transmitted
  have ids := attempted.hostIds_current correlated numbered found
  refine ⟨sameAttempts, fun number some => ?carried, fun number => ?bounded,
    fun e' found' => ?current, fun number member => ?exhausted⟩
  case carried =>
    by_cases same : e.caller = number
    case pos =>
      subst same
      refine ⟨e.sequence, bears_record (numbered.current e found), ?_⟩
      rw [History.hostIds, frames, if_pos rfl, List.filterMap_append, ← History.hostIds, ids,
        List.length_append, List.length_singleton, List.range_succ, List.map_append, length]
      simp [hostId?_of_encode made]
    case neg =>
      rw [frames, if_neg same, List.append_nil] at some
      obtain ⟨sequence, bears, ids⟩ := attempted.carried number some
      refine ⟨sequence, bears_record bears, ?_⟩
      rw [History.hostIds, frames, if_neg same, List.append_nil]
      exact ids
  case bounded =>
    rw [frames]
    split
    case isTrue same =>
      subst same
      rw [List.length_append, length]
      exact left
    case isFalse =>
      rw [List.append_nil]
      exact attempted.bounded number
  case current =>
    obtain rfl := Option.some.inj (moved.symm.trans found')
    rw [frames, if_pos rfl, List.length_append, length]
    exact .out rfl left
  case exhausted =>
    rw [ended_record, List.mem_append] at member
    rcases member with earlier | new
    · rw [frames, if_neg, List.append_nil]
      · exact attempted.exhausted number earlier
      · rintro rfl
        exact correlated.not_ended found (List.mem_map_of_mem earlier)
    · cases new

/-- A step of the send that has the channel. -/
theorem attempted_of_advanced (attempted : Attempted attempts h) (correlated : Correlated h)
    (numbered : Numbered h) (found : h.session.channel.exchange = some e)
    (sameAttempts : after.channel.attempts = attempts)
    (step : Advanced h.session e move after reaction) :
    Attempted attempts (h.record ⟨h.session, move, after, reaction⟩) := by
  have handed := attempted.current e found
  have moved {e' : Exchange Nat} (sameCaller : e'.caller = e.caller)
      (handed : Handed attempts e' (h.frames e.caller).length) :
      ∀ e'', some e' = some e'' → Handed attempts e'' (h.frames e''.caller).length := by
    intro e'' same
    obtain rfl := Option.some.inj same
    rwa [sameCaller]
  cases step with
  | launched ready made =>
      exact attempted_of_launched attempted correlated numbered found ready made sameAttempts rfl
  | unframed ready failed =>
      obtain ⟨length, left⟩ := handed.of_ready ready
      refine attempted_of_silent attempted sameAttempts rfl (moved rfl ?_)
        fun _ none => by cases none
      obtain ⟨defect, rfl⟩ := exists_malformed_of_encode failed
      exact .ending rfl (by omega) fun timeout => by cases timeout
  | refused inHand =>
      exact attempted_of_silent attempted sameAttempts rfl
        (moved rfl (handed.ended (by rw [inHand]; rfl) (ne_timeout_of_linkError _)))
        fun _ none => by cases none
  | passed inHand =>
      obtain ⟨length, left⟩ := handed.of_out (by rw [inHand]; rfl)
      refine attempted_of_silent attempted sameAttempts rfl (moved rfl ?_)
        fun _ none => by cases none
      rw [length]
      exact .out rfl left
  | resumed holds =>
      exact attempted_of_silent attempted sameAttempts rfl
        (moved rfl (handed.ended (by rw [holds]; rfl) (outcomeOf_ne_timeout _)))
        fun _ none => by cases none
  | cutOff closed =>
      exact attempted_of_silent attempted sameAttempts rfl
        (moved rfl (handed.ended (by rw [closed]; rfl) (by simp))) fun _ none => by cases none
  | retried waits more =>
      obtain ⟨length, left⟩ := handed.of_out (by rw [waits]; rfl)
      refine attempted_of_silent attempted sameAttempts rfl (moved rfl ?_)
        fun _ none => by cases none
      rw [length]
      exact .ready rfl (attempted.allowed ▸ more)
  | exhausted waits last =>
      obtain ⟨length, left⟩ := handed.of_out (by rw [waits]; rfl)
      rw [attempted.allowed] at last
      refine attempted_of_silent attempted sameAttempts rfl (moved rfl ?_)
        fun _ none => by cases none
      rw [length]
      exact .ending rfl left fun _ => Nat.le_antisymm left last
  | left leaving =>
      refine attempted_of_silent attempted sameAttempts rfl (fun _ none => by cases none)
        fun number ended => ?_
      cases ended
      exact handed.of_timeout leaving

theorem attempted_record (positive : 0 < attempts) (correlated : Correlated h)
    (numbered : Numbered h) (attempted : Attempted attempts h)
    (possible : h.session.act? move = some (after, reaction)) :
    Attempted attempts (h.record ⟨h.session, move, after, reaction⟩) := by
  have sameAttempts := (attempts_of_acted (acted possible)).trans attempted.allowed
  cases own : move.isOwn with
  | true =>
      obtain ⟨e, found, step⟩ := advanced own possible
      exact attempted_of_advanced attempted correlated numbered found sameAttempts step
  | false =>
      cases acted possible with
      | @taken next rest free queued =>
          refine attempted_of_silent attempted sameAttempts rfl (fun e found => ?_)
            fun _ none => by cases none
          obtain rfl := Option.some.inj found
          rw [attempted.frames_of_queued correlated (queued ▸ List.mem_cons_self)]
          exact .ready rfl positive
      | hungUp | confirmed =>
          refine attempted_of_silent attempted sameAttempts rfl (fun e' left => ?_)
            fun _ none => by cases none
          obtain ⟨e, found, rfl⟩ := Option.map_eq_some_iff.mp left
          rw [toPending_leave]
          exact (attempted.current e found).leave _
      | submitted | attached | unlinked | unheard | unsolicited | stale | turnedAway =>
          exact attempted_of_silent attempted sameAttempts rfl attempted.current
            fun _ none => by cases none
      | launched | left => cases own
      | staged isOwn => cases own.symm.trans isOwn

theorem attempted_history (settings : Settings) (moves : List Move) :
    Correlated (history settings moves) ∧ Numbered (history settings moves) ∧
      Attempted (max settings.maximumAttempts 1) (history settings moves) :=
  invariant_of_numbered (Attempted (max settings.maximumAttempts 1)) settings
    (attempted_start settings)
    (fun _ _ _ _ correlated numbered attempted possible =>
      attempted_record (by omega) correlated numbered attempted possible) moves

/-! ### What identifiers tell -/

theorem retry_of (sequence attempt : Nat) : (HostId.of sequence attempt).retry.val = attempt % 16 :=
  Bit.val_lowFour attempt

/-- The identifiers of a send tell its attempts apart until the count in them comes round. -/
theorem distinguishable_iff {sequence : Nat} (ids : h.hostIds number =
    (List.range (h.frames number).length).map (HostId.of sequence)) :
    h.Distinguishable number ↔ (h.frames number).length ≤ 16 := by
  constructor
  · intro distinguishable
    by_contra many
    have apart := distinguishable.apart
    rw [ids] at apart
    have first : 0 ∈ List.range (h.frames number).length := List.mem_range.mpr (by omega)
    have comesRound : 16 ∈ List.range (h.frames number).length := List.mem_range.mpr (by omega)
    exact absurd (List.inj_on_of_nodup_map apart first comesRound rfl) (by decide)
  · intro few
    refine ⟨?_, ?_⟩
    · rw [ids]
      refine List.nodup_range.map_on fun one within other alsoWithin same => ?_
      have sameRetry : one % 16 = other % 16 := congrArg (·.retry.val) same
      rw [List.mem_range] at within alsoWithin
      omega
    · rw [ids, List.map_map]
      refine (List.map_congr_left fun attempt within => ?_).trans (List.map_id _)
      rw [List.mem_range] at within
      exact Nat.mod_eq_of_lt (by omega)

/-- What the frames of a send carry, and how many there are. -/
structure Attempts (settings : Settings) (h : History) (number : Nat) : Prop where
  /-- All frames carry the sequence number of the send. -/
  sequence : ∀ id ∈ h.hostIds number, h.Bears number id.sequence.val
  /-- The frames are counted from 0, modulo 16. -/
  retry : (h.hostIds number).map (·.retry.val) =
    (List.range (h.frames number).length).map (· % 16)
  apart : h.Distinguishable number ↔ (h.frames number).length ≤ 16
  bounded : (h.frames number).length ≤ max settings.maximumAttempts 1
  /-- A send gives up only when it has made all its attempts. -/
  exhausted : (number, .error .timeout) ∈ h.ended →
    (h.frames number).length = max settings.maximumAttempts 1

theorem Attempted.attempts_of {settings : Settings}
    (attempted : Attempted (max settings.maximumAttempts 1) h) (number : Nat) :
    Attempts settings h number := by
  by_cases none : h.frames number = []
  case pos =>
    have ids : h.hostIds number = [] := by simp [History.hostIds, none]
    refine ⟨fun id member => ?_, ?_, ?_, attempted.bounded number, attempted.exhausted number⟩
    · rw [ids] at member
      cases member
    · rw [ids, none]
      rfl
    · have noIds : h.hostIds number =
          (List.range (h.frames number).length).map (HostId.of 0) := by
        rw [ids, none]
        rfl
      exact distinguishable_iff noIds
  case neg =>
    obtain ⟨sequence, bears, ids⟩ := attempted.carried number none
    refine ⟨fun id member => ?_, ?_, distinguishable_iff ids, attempted.bounded number,
      attempted.exhausted number⟩
    · rw [ids, List.mem_map] at member
      obtain ⟨attempt, -, rfl⟩ := member
      obtain ⟨place, found, rfl⟩ := bears
      have fits : place % HostId.maximumSequence + 1 ≤ HostId.maximumSequence :=
        Nat.mod_lt place (by decide)
      exact ⟨place, found, val_sequence_of attempt fits⟩
    · rw [ids, List.map_map]
      exact List.map_congr_left fun attempt _ => retry_of sequence attempt

/-! ### A send that nobody answers -/

/-- A health check whose attempts are given up one after the other. -/
def unanswered (settings : Settings) : Nat → List Move
  | 0 => [.attach, .submit .healthCheck none, .take]
  | attempt + 1 =>
      unanswered settings attempt ++
        [.proceed, .transmitted 0 (.ok ()), .expire settings.healthTimeout]

theorem history_append (settings : Settings) (moves more : List Move) :
    history settings (moves ++ more) = more.foldl History.extend (history settings moves) :=
  List.foldl_append

/-- A command that has a frame is handed to the link. -/
theorem exchange_of_launched {frame : List UInt8} (found : h.session.channel.exchange = some e)
    (ready : e.stage = .ready)
    (made : e.command.encode (HostId.of e.sequence e.attempt) = .ok frame) :
    (h.extend .proceed).session.channel.exchange = some { e with stage := .inHand } := by
  rw [channel_extend rfl]
  simp only [after?, proceed?, found, ready, launch, made, Option.map_some, Option.getD_some]

/-- A send whose confirm does not come makes its next attempt. -/
theorem exchange_of_retried {frame : List UInt8} (found : h.session.channel.exchange = some e)
    (ready : e.stage = .ready)
    (made : e.command.encode (HostId.of e.sequence e.attempt) = .ok frame)
    (more : e.attempt + 1 < h.session.channel.attempts) :
    (([.proceed, .transmitted 0 (.ok ()), .expire e.wait] : List Move).foldl History.extend
      h).session.channel.exchange = some { e with attempt := e.attempt + 1, stage := .ready } := by
  have proceeded : (h.extend .proceed).session.channel = (h.session.channel.launch e).1 := by
    rw [channel_extend rfl]
    simp only [after?, proceed?, found, ready, Option.map_some, Option.getD_some]
  simp only [List.foldl_cons, List.foldl_nil]
  rw [channel_extend rfl, channel_extend rfl, proceeded]
  simp only [launch, made, after?, transmitted?, expire?, Option.map_some, Option.getD_some,
    Nat.zero_add, Nat.le_refl, if_true]
  exact congrArg some (if_pos more)

/-- The send is about to make its next attempt, as long as it may. -/
theorem exchange_unanswered (settings : Settings) :
    ∀ attempt < max settings.maximumAttempts 1,
      (history settings (unanswered settings attempt)).session.channel.exchange = some
        { caller := 0
          command := .healthCheck
          wait := settings.healthTimeout
          sequence := 1
          attempt
          stage := .ready }
  | 0, _ => rfl
  | attempt + 1, within => by
      have ready := exchange_unanswered settings attempt (Nat.lt_of_succ_lt within)
      have allowed := (attempted_history settings (unanswered settings attempt)).2.2.allowed
      rw [unanswered, history_append]
      exact exchange_of_retried ready rfl rfl (allowed ▸ within)

/-- With the next attempt one more frame is handed to the link. -/
theorem length_frames_unanswered (settings : Settings) (attempt : Nat)
    (within : attempt < max settings.maximumAttempts 1) :
    ((history settings (unanswered settings attempt ++ [.proceed])).frames 0).length =
      attempt + 1 := by
  have launched := exchange_of_launched (exchange_unanswered settings attempt within) rfl rfl
  have attempted := (attempted_history settings (unanswered settings attempt ++ [.proceed])).2.2
  rw [history_append] at attempted ⊢
  exact ((attempted.current _ launched).of_out rfl).1

/-- Whatever senders, the receive path, the link and the clock do, in whatever order: all frames of a
send carry its sequence number, and it makes no more attempts than the settings allow, all of them
before it ends with a timeout. The frames count the attempts modulo 16, so all attempts can be told
apart exactly if the settings allow no more than 16. -/
theorem attempts_history (settings : Settings) :
    (∀ moves number, Attempts settings (history settings moves) number) ∧
      ((∀ moves number, (history settings moves).Distinguishable number) ↔
        settings.maximumAttempts ≤ 16) := by
  have always (moves : List Move) (number : Nat) :
      Attempts settings (history settings moves) number :=
    (attempted_history settings moves).2.2.attempts_of number
  refine ⟨always, fun distinguishable => ?_, fun few moves number => ?_⟩
  · -- The seventeenth frame is handed to the link when sixteen attempts have been given up.
    by_contra many
    have length := length_frames_unanswered settings 16 (by omega)
    have few := (always _ 0).apart.mp (distinguishable (unanswered settings 16 ++ [.proceed]) 0)
    omega
  · exact (always moves number).apart.mpr (Nat.le_trans (always moves number).bounded (by omega))

/-- The seventeenth frame of a send carries the identifier of its first. -/
theorem not_distinguishable_seventeenAttempts :
    let settings : Settings := { maximumAttempts := 17 }
    let h := history settings (unanswered settings 17 ++ [.proceed])
    h.ended.map (·.1) = [0] ∧ h.session.channel.stats.timeouts = 17 ∧
      (h.frames 0).length = 17 ∧ ¬ h.Distinguishable 0 := by
  decide +kernel

end TargetWakeTime.Host.Channel
