import TargetWakeTime.Host.Channel

/-!
Contract: everything that can happen to a command channel, in any order.

Owns:
- the moves, one for each step that a sender, the receive path, the link or the clock can make, with
  any arguments;
- sessions, which number the sends in the order of their submission, and the history of a session;
- what a move does, case by case: the moves of the send that has the channel with the whole channel
  after them, and all moves as far as confirms and sends have to do with each other.

A move that cannot be made at the time is no part of the history: senders wait for the channel, and
whoever needs the outstanding slot waits while the link has a frame in hand.
-/

namespace TargetWakeTime.Host.Channel

inductive Move where
  | submit (command : Command) (wait : Option Nat)
  | attach
  /-- The first half of losing the link. -/
  | unlink
  /-- The second half of losing the link. -/
  | hangUp
  | receive (r : Response)
  /-- The first send in the queue takes the channel. -/
  | take
  | proceed
  | transmitted (now : Nat) (outcome : Except LinkError Unit)
  | resume
  | expire (now : Nat)

/-- What there is to see of a move. -/
inductive Reaction where
  | quiet
  | answered (accepted : Except CommandError Unit)
  | signal (signal : Signal Nat)

structure Session where
  channel : Channel Nat
  /-- The commands of all sends, each at the place of its number. -/
  commands : List Command := []

/-- Whether nobody gets at the outstanding slot. -/
def locked {Caller : Type} (c : Channel Caller) : Bool :=
  match c.exchange with
  | some { stage := .inHand, .. } => true
  | _ => false

namespace Session

/-- A step of the send that has the channel. -/
def seen (s : Session) : Moved Nat → Session × Reaction
  | (channel, none) => ({ s with channel }, .quiet)
  | (channel, some signal) => ({ s with channel }, .signal signal)

/-- What a move does, if it can be made. -/
def act? (s : Session) : Move → Option (Session × Reaction)
  | .submit command wait =>
      some ({ channel := s.channel.submit s.commands.length command wait
              commands := s.commands ++ [command] }, .quiet)
  | .attach => some ({ s with channel := s.channel.attach }, .quiet)
  | .unlink => some ({ s with channel := s.channel.unlink }, .quiet)
  | .hangUp =>
      if s.channel.locked then none else some ({ s with channel := s.channel.hangUp }, .quiet)
  | .receive r =>
      if s.channel.locked then none
      else
        let (accepted, channel) := s.channel.receive r
        some ({ s with channel }, .answered accepted)
  | .take => s.channel.open?.map s.seen
  | .proceed => s.channel.proceed?.map s.seen
  | .transmitted now outcome => (s.channel.transmitted? now outcome).map s.seen
  | .resume => s.channel.resume?.map s.seen
  | .expire now => (s.channel.expire? now).map s.seen

end Session

structure Step where
  before : Session
  move : Move
  after : Session
  reaction : Reaction

/-- A session and all steps that led to it, oldest first. -/
structure History where
  session : Session
  log : List Step := []

def History.record (h : History) (step : Step) : History :=
  { session := step.after, log := h.log ++ [step] }

/-- Makes a move if it can be made. -/
def History.extend (h : History) (move : Move) : History :=
  match h.session.act? move with
  | none => h
  | some (after, reaction) => h.record { before := h.session, move, after, reaction }

/-- The history of a channel that starts without a link. -/
def history (settings : Settings) (moves : List Move) : History :=
  moves.foldl History.extend { session := { channel := { settings } } }

/-- What a new channel meets and every move preserves is met by all histories. -/
theorem invariant_of_act (invariant : History → Prop) (settings : Settings)
    (start : invariant { session := { channel := { settings } } })
    (kept : ∀ h move after reaction, invariant h → h.session.act? move = some (after, reaction) →
      invariant (h.record ⟨h.session, move, after, reaction⟩))
    (moves : List Move) : invariant (history settings moves) := by
  unfold history
  generalize ({ session := { channel := { settings } } } : History) = h at start ⊢
  induction moves generalizing h with
  | nil => exact start
  | cons move rest inductionHypothesis =>
      apply inductionHypothesis
      unfold History.extend
      split
      case h_1 => exact start
      case h_2 after reaction acted => exact kept h move after reaction start acted

/-! ### Stages of an exchange -/

/-- Whether a transmission is under way that nothing was left for yet. -/
def Stage.isOpen : Stage → Bool
  | inHand | waiting _ .empty => true
  | ready | waiting _ (.holds _) | waiting _ .closed | ending _ => false

/-- Whether the send waits on a transmission. -/
def Stage.isWaiting : Stage → Bool
  | waiting _ .empty => true
  | ready | inHand | waiting _ (.holds _) | waiting _ .closed | ending _ => false

/-- Whether a send that ends like this was answered by the chip. -/
def fromChip : Outcome → Bool
  | .ok _ | .error (.deviceError _) => true
  | .error _ => false

/-- How the send is going to end, once the chip has answered it. -/
def Stage.verdict? : Stage → Option Outcome
  | waiting _ (.holds r) => some (outcomeOf r)
  | ending outcome => if fromChip outcome then some outcome else none
  | ready | inHand | waiting _ .empty | waiting _ .closed => none

/-! ### What a move does -/

/-- The moves of the send that has the channel. -/
def Move.isOwn : Move → Bool
  | proceed | transmitted .. | resume | expire _ => true
  | submit .. | attach | unlink | hangUp | receive _ | take => false

/-- The ways in which the send that has the channel moves on. -/
inductive Advanced (s : Session) (e : Exchange Nat) : Move → Session → Reaction → Prop where
  /-- The command has no frame. -/
  | unframed {error : CommandError} (ready : e.stage = .ready)
      (failed : e.command.encode (HostId.of e.sequence e.attempt) = .error error) :
      Advanced s e .proceed
        { s with channel :=
          { s.channel with exchange := some { e with stage := .ending (.error error) } } }
        .quiet
  | launched {frame : List UInt8} (ready : e.stage = .ready)
      (made : e.command.encode (HostId.of e.sequence e.attempt) = .ok frame) :
      Advanced s e .proceed
        { s with channel :=
          { s.channel with
            exchange := some { e with stage := .inHand }
            outstanding := some
              { message := e.command.message
                hostId := HostId.of e.sequence e.attempt
                listening := true } } }
        (.signal (.transmit frame))
  /-- The link refuses the frame. -/
  | refused {now : Nat} {error : LinkError} (inHand : e.stage = .inHand) :
      Advanced s e (.transmitted now (.error error))
        { s with channel :=
          { s.channel with
            exchange := some { e with stage := .ending (.error error.toCommandError) } } }
        .quiet
  /-- The link takes the frame. -/
  | passed {now : Nat} (inHand : e.stage = .inHand) :
      Advanced s e (.transmitted now (.ok ()))
        { s with channel :=
          { s.channel with
            stats :=
              { s.channel.stats with
                sent := s.channel.stats.sent + 1
                retries := s.channel.stats.retries + if 0 < e.attempt then 1 else 0 }
            exchange := some { e with stage := .waiting (now + e.wait) .empty } } }
        .quiet
  /-- The send takes up its confirm. -/
  | resumed {deadline : Nat} {r : Response} (holds : e.stage = .waiting deadline (.holds r)) :
      Advanced s e .resume
        { s with channel :=
          { s.channel with exchange := some { e with stage := .ending (outcomeOf r) } } }
        .quiet
  /-- The send learns that no confirm will come. -/
  | cutOff {deadline : Nat} (closed : e.stage = .waiting deadline .closed) :
      Advanced s e .resume
        { s with channel :=
          { s.channel with exchange := some { e with stage := .ending (.error .noTransport) } } }
        .quiet
  | retried {now deadline : Nat} (waits : e.stage = .waiting deadline .empty)
      (more : e.attempt + 1 < s.channel.attempts) :
      Advanced s e (.expire now)
        { s with channel :=
          { s.channel with
            stats := { s.channel.stats with timeouts := s.channel.stats.timeouts + 1 }
            exchange := some { e with attempt := e.attempt + 1, stage := .ready } } }
        .quiet
  /-- The last attempt is given up. -/
  | exhausted {now deadline : Nat} (waits : e.stage = .waiting deadline .empty)
      (last : s.channel.attempts ≤ e.attempt + 1) :
      Advanced s e (.expire now)
        { s with channel :=
          { s.channel with
            stats := { s.channel.stats with timeouts := s.channel.stats.timeouts + 1 }
            exchange := some { e with stage := .ending (.error .timeout) } } }
        .quiet
  | left {outcome : Outcome} (leaving : e.stage = .ending outcome) :
      Advanced s e .proceed
        { s with channel :=
          { s.channel with
            exchange := none
            outstanding := none
            power := s.channel.power.enable } }
        (.signal (.done e.caller outcome))

/-- The ways in which a move changes a session. -/
inductive Acted (s : Session) : Move → Session → Reaction → Prop where
  | submitted (command : Command) (wait : Option Nat) :
      Acted s (.submit command wait)
        { channel := s.channel.submit s.commands.length command wait
          commands := s.commands ++ [command] } .quiet
  | attached : Acted s .attach { s with channel := { s.channel with attached := true } } .quiet
  | unlinked : Acted s .unlink { s with channel := { s.channel with attached := false } } .quiet
  /-- Nobody listens. -/
  | unheard : Acted s .hangUp s .quiet
  | hungUp {slot : Outstanding} (unlocked : s.channel.locked = false)
      (found : s.channel.outstanding = some slot) (listening : slot.listening = true) :
      Acted s .hangUp { s with channel := s.channel.complete slot .closed } .quiet
  | unsolicited {r : Response} (event : r.isConfirm = false) :
      Acted s (.receive r) s (.answered (.error (.unsolicitedEvent r.header.message)))
  /-- No slot is outstanding that the confirm belongs to. -/
  | stale {r : Response} (confirms : r.isConfirm = true)
      (unmatched : ∀ slot, s.channel.outstanding = some slot → slot.listening = true →
        slot.answeredBy r = false) :
      Acted s (.receive r)
        { s with channel :=
          { s.channel with
            stats := { s.channel.stats with stale := s.channel.stats.stale + 1 } } }
        (.answered (.error .staleResponse))
  | confirmed {r : Response} {slot : Outstanding} (unlocked : s.channel.locked = false)
      (confirms : r.isConfirm = true) (found : s.channel.outstanding = some slot)
      (listening : slot.listening = true) (answered : slot.answeredBy r = true) :
      Acted s (.receive r) { s with channel := s.channel.complete slot (.holds r) }
        (.answered (.ok ()))
  | taken {next : Pending Nat} {rest : List (Pending Nat)} (free : s.channel.exchange = none)
      (queued : s.channel.queue = next :: rest) :
      Acted s .take
        { s with channel :=
          { s.channel with
            queue := rest
            sequence := nextSequence s.channel.sequence
            power := s.channel.power.disable
            exchange := some
              { next with
                sequence := nextSequence s.channel.sequence
                attempt := 0
                stage := .ready } } }
        .quiet
  | turnedAway {next : Pending Nat} {rest : List (Pending Nat)} (free : s.channel.exchange = none)
      (queued : s.channel.queue = next :: rest) :
      Acted s .take { s with channel := { s.channel with queue := rest } }
        (.signal (.done next.caller (.error .noTransport)))
  | launched {e : Exchange Nat} {frame : List UInt8} (found : s.channel.exchange = some e)
      (ready : e.stage = .ready) :
      Acted s .proceed
        { s with channel :=
          { s.channel with
            exchange := some { e with stage := .inHand }
            outstanding := some
              { message := e.command.message
                hostId := HostId.of e.sequence e.attempt
                listening := true } } }
        (.signal (.transmit frame))
  /-- The send gets further with its exchange. -/
  | staged {move : Move} {e : Exchange Nat} {attempt : Nat} {stage : Stage} {stats : Stats}
      (own : move.isOwn = true) (found : s.channel.exchange = some e)
      (staysOpen : stage.isOpen = true → e.stage.isOpen = true ∧ attempt = e.attempt)
      (sameVerdict : stage.verdict? = e.stage.verdict?)
      (sameStale : stats.stale = s.channel.stats.stale) :
      Acted s move
        { s with channel := { s.channel with stats, exchange := some { e with attempt, stage } } }
        .quiet
  | left {e : Exchange Nat} {outcome : Outcome}
      (found : s.channel.exchange = some e) (leaving : e.stage = .ending outcome) :
      Acted s .proceed
        { s with channel :=
          { s.channel with
            exchange := none
            outstanding := none
            power := s.channel.power.enable } }
        (.signal (.done e.caller outcome))

variable {s after : Session} {move : Move} {reaction : Reaction} {moved : Moved Nat}

/-! ### Moves of the send that has the channel -/

theorem advanced_proceed (proceeded : s.channel.proceed? = some moved) :
    ∃ e, s.channel.exchange = some e ∧
      Advanced s e .proceed (s.seen moved).1 (s.seen moved).2 := by
  unfold proceed? at proceeded
  split at proceeded
  case h_1 => cases proceeded
  case h_2 e found =>
    refine ⟨e, found, ?_⟩
    split at proceeded
    case h_1 ready =>
      obtain rfl := Option.some.inj proceeded
      unfold launch
      dsimp only
      split
      case h_1 error failed => exact .unframed ready failed
      case h_2 frame made => exact .launched ready made
    case h_2 outcome leaving =>
      cases proceeded
      exact .left leaving
    case h_3 => cases proceeded
    case h_4 => cases proceeded

theorem advanced_transmitted {now : Nat} {outcome : Except LinkError Unit}
    (transmitted : s.channel.transmitted? now outcome = some moved) :
    ∃ e, s.channel.exchange = some e ∧
      Advanced s e (.transmitted now outcome) (s.seen moved).1 (s.seen moved).2 := by
  unfold transmitted? at transmitted
  split at transmitted
  case h_1 => cases transmitted
  case h_2 e found =>
    refine ⟨e, found, ?_⟩
    split at transmitted
    case h_1 error inHand =>
      cases transmitted
      exact .refused inHand
    case h_2 inHand =>
      cases transmitted
      exact .passed inHand
    case h_3 => cases transmitted

theorem advanced_resume (resumed : s.channel.resume? = some moved) :
    ∃ e, s.channel.exchange = some e ∧
      Advanced s e .resume (s.seen moved).1 (s.seen moved).2 := by
  unfold resume? at resumed
  split at resumed
  case h_1 => cases resumed
  case h_2 e found =>
    refine ⟨e, found, ?_⟩
    split at resumed
    case h_1 deadline r holds =>
      cases resumed
      exact .resumed holds
    case h_2 deadline closed =>
      cases resumed
      exact .cutOff closed
    case h_3 => cases resumed

theorem advanced_expire {now : Nat} (expired : s.channel.expire? now = some moved) :
    ∃ e, s.channel.exchange = some e ∧
      Advanced s e (.expire now) (s.seen moved).1 (s.seen moved).2 := by
  unfold expire? at expired
  split at expired
  case h_1 => cases expired
  case h_2 e found =>
    refine ⟨e, found, ?_⟩
    split at expired
    case h_1 deadline waits =>
      split at expired
      case isTrue =>
        cases expired
        dsimp only
        split
        case isTrue more => exact .retried waits more
        case isFalse last => exact .exhausted waits (Nat.le_of_not_lt last)
      case isFalse => cases expired
    case h_2 => cases expired

/-- A move of the send that has the channel does one of these things. -/
theorem advanced (own : move.isOwn = true) (possible : s.act? move = some (after, reaction)) :
    ∃ e, s.channel.exchange = some e ∧ Advanced s e move after reaction := by
  have made {f : Option (Moved Nat)} (yields : ∀ moved, f = some moved →
      ∃ e, s.channel.exchange = some e ∧ Advanced s e move (s.seen moved).1 (s.seen moved).2)
      (made : f.map s.seen = some (after, reaction)) :
      ∃ e, s.channel.exchange = some e ∧ Advanced s e move after reaction := by
    obtain ⟨moved, found, result⟩ := Option.map_eq_some_iff.mp made
    have step := yields moved found
    rwa [result] at step
  cases move
  case proceed => exact made (fun _ => advanced_proceed) possible
  case transmitted now outcome => exact made (fun _ => advanced_transmitted) possible
  case resume => exact made (fun _ => advanced_resume) possible
  case expire now => exact made (fun _ => advanced_expire) possible
  all_goals cases own

/-! ### All moves -/

theorem acted_hangUp (unlocked : s.channel.locked = false) :
    Acted s .hangUp { s with channel := s.channel.hangUp } .quiet := by
  unfold hangUp
  split
  case h_1 slot found =>
    split
    case isTrue listening => exact .hungUp unlocked found listening
    case isFalse => exact .unheard
  case h_2 => exact .unheard

theorem acted_receive (unlocked : s.channel.locked = false) (r : Response) :
    Acted s (.receive r) { s with channel := (s.channel.receive r).2 }
      (.answered (s.channel.receive r).1) := by
  unfold receive
  split
  case isTrue confirms =>
    dsimp only
    split
    case h_1 slot found =>
      split
      case isTrue matched => exact .confirmed unlocked confirms found matched.2 matched.1
      case isFalse unmatched =>
        refine .stale confirms fun other outstanding listening => ?_
        cases found.symm.trans outstanding
        exact Bool.eq_false_iff.mpr fun answered => unmatched ⟨answered, listening⟩
    case h_2 empty =>
      refine .stale confirms fun slot outstanding => ?_
      cases empty.symm.trans outstanding
  case isFalse event => exact .unsolicited (by simpa using event)

theorem acted_open (opened : s.channel.open? = some moved) :
    Acted s .take (s.seen moved).1 (s.seen moved).2 := by
  unfold open? at opened
  split at opened
  case h_1 next rest free queued =>
    dsimp only at opened
    split at opened
    case isTrue =>
      cases opened
      exact .taken free queued
    case isFalse =>
      cases opened
      exact .turnedAway free queued
  case h_2 => cases opened

/-- Only commands that are too long have no frame. -/
theorem exists_malformed_of_encode {command : Command} {hostId : HostId} {error : CommandError}
    (unframed : command.encode hostId = .error error) : ∃ defect, error = .malformed defect := by
  unfold Command.encode at unframed
  split at unframed
  case h_1 cause tooLong =>
    cases unframed
    cases command
    case install vif flow agreement | validate vif flow agreement =>
      simp only [Command.payload, Command.agreementPayload] at tooLong
      split at tooLong
      · cases tooLong
      · cases tooLong
        exact ⟨_, rfl⟩
    all_goals cases tooLong
  case h_2 => cases unframed

theorem not_fromChip_of_encode {command : Command} {hostId : HostId} {error : CommandError}
    (unframed : command.encode hostId = .error error) : fromChip (.error error) = false := by
  obtain ⟨defect, rfl⟩ := exists_malformed_of_encode unframed
  rfl

theorem not_fromChip_of_linkError (error : LinkError) :
    fromChip (.error error.toCommandError) = false := by
  cases error <;> rfl

/-- A send ends without an answer of the chip. -/
theorem staged_ending {e : Exchange Nat} {error : CommandError} {stats : Stats}
    (own : move.isOwn = true) (found : s.channel.exchange = some e)
    (unanswered : e.stage.verdict? = none) (failed : fromChip (.error error) = false)
    (sameStale : stats.stale = s.channel.stats.stale) :
    Acted s move
      { s with channel :=
        { s.channel with stats, exchange := some { e with stage := .ending (.error error) } } }
      .quiet := by
  refine .staged own found (fun isOpen => by cases isOpen) ?_ sameStale
  rw [unanswered, Stage.verdict?, failed]
  rfl

theorem fromChip_outcomeOf (r : Response) : fromChip (outcomeOf r) = true := by
  unfold outcomeOf
  split <;> rfl

/-- What the send that has the channel does, as far as confirms and sends have to do with each
other. -/
theorem acted_of_advanced {e : Exchange Nat} (found : s.channel.exchange = some e)
    (step : Advanced s e move after reaction) : Acted s move after reaction := by
  cases step with
  | unframed ready failed =>
      exact staged_ending rfl found (by rw [ready]; rfl) (not_fromChip_of_encode failed) rfl
  | launched ready => exact .launched found ready
  | refused inHand =>
      exact staged_ending rfl found (by rw [inHand]; rfl) (not_fromChip_of_linkError _) rfl
  | passed inHand =>
      refine .staged rfl found (fun _ => ⟨?_, rfl⟩) ?_ rfl
      · rw [inHand]
        rfl
      · rw [inHand]
        rfl
  | @resumed _ r holds =>
      refine .staged rfl found (fun isOpen => by cases isOpen) ?_ rfl
      show (if fromChip (outcomeOf r) then some (outcomeOf r) else none) = e.stage.verdict?
      rw [holds, fromChip_outcomeOf]
      rfl
  | cutOff closed => exact staged_ending rfl found (by rw [closed]; rfl) rfl rfl
  | retried waits =>
      refine .staged rfl found (fun isOpen => by cases isOpen) ?_ rfl
      rw [waits]
      rfl
  | exhausted waits => exact staged_ending rfl found (by rw [waits]; rfl) rfl rfl
  | left leaving => exact .left found leaving

/-- A move that can be made does one of these things. -/
theorem acted (possible : s.act? move = some (after, reaction)) : Acted s move after reaction := by
  cases own : move.isOwn with
  | true =>
      obtain ⟨e, found, step⟩ := advanced own possible
      exact acted_of_advanced found step
  | false =>
      cases move
      case submit command wait =>
        cases possible
        exact .submitted command wait
      case attach =>
        cases possible
        exact .attached
      case unlink =>
        cases possible
        exact .unlinked
      case hangUp =>
        rw [Session.act?] at possible
        split at possible
        case isTrue => cases possible
        case isFalse unlocked =>
          cases possible
          exact acted_hangUp (Bool.eq_false_iff.mpr unlocked)
      case receive r =>
        rw [Session.act?] at possible
        split at possible
        case isTrue => cases possible
        case isFalse unlocked =>
          cases possible
          exact acted_receive (Bool.eq_false_iff.mpr unlocked) r
      case take =>
        obtain ⟨moved, opened, result⟩ := Option.map_eq_some_iff.mp possible
        have step := acted_open opened
        rwa [result] at step
      all_goals cases own

end TargetWakeTime.Host.Channel
