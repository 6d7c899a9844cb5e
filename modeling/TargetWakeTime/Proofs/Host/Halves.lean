import TargetWakeTime.Proofs.Host.Listening

/-!
Contract: receiving a confirm in two halves.

Owns:
- the halves: the slot is taken, and the confirm is left for the send;
- that whatever comes between them, the outcome is that of a run in which the confirm is received at
  once: before what comes between, or directly after the timeout of its attempt, if that comes between.

Once a slot is taken, nobody listens to it. So all that can come between are moves which have nothing to
do with the send that waits, and its timeout. What is left for an attempt that has timed out is lost.
-/

namespace TargetWakeTime.Host.Channel

/-- The slot is taken. -/
def claim (slot : Outstanding) (c : Channel Nat) : Channel Nat :=
  { c with outstanding := some { slot with listening := false } }

/-- Something is left for the send that has the channel. -/
def deposit (mailbox : Mailbox) (c : Channel Nat) : Channel Nat :=
  { c with exchange := c.exchange.map (·.leave mailbox) }

namespace Session

def claim (slot : Outstanding) (s : Session) : Session :=
  { s with channel := s.channel.claim slot }

def deposit (mailbox : Mailbox) (s : Session) : Session :=
  { s with channel := s.channel.deposit mailbox }

/-- Makes all moves in turn, if they can be made. -/
def run? : List Move → Session → Option (Session × List Reaction)
  | [], s => some (s, [])
  | move :: rest, s =>
      (s.act? move).bind fun (after, reaction) =>
        (run? rest after).map fun (last, reactions) => (last, reaction :: reactions)

end Session

variable {s m after last : Session} {move : Move} {reaction : Reaction} {e : Exchange Nat}
  {slot : Outstanding} {r : Response} {deadline now : Nat}

/-- A confirm that matches takes the slot and is left for the send. -/
theorem act_receive (unlocked : s.channel.locked = false) (confirms : r.isConfirm = true)
    (outstanding : s.channel.outstanding = some slot) (listening : slot.listening = true)
    (matched : slot.answeredBy r = true) :
    s.act? (.receive r) = some ((s.claim slot).deposit (.holds r), .answered (.ok ())) := by
  have received : s.channel.receive r = (.ok (), s.channel.complete slot (.holds r)) := by
    simp only [receive, confirms, if_true, outstanding, matched, listening, and_self]
  rw [Session.act?, unlocked, if_neg Bool.false_ne_true, received]
  rfl

/-! ### Moves that come between -/

/-- The session with another send in the channel, and another count of timeouts. -/
def Session.altered (exchange : Exchange Nat) (timeouts : Nat) (s : Session) : Session :=
  { s with channel :=
    { s.channel with
      exchange := some exchange
      stats := { s.channel.stats with timeouts } } }

/-- What moves that have nothing to do with the send leave as it is. -/
structure Session.Keeps (s m : Session) : Prop where
  exchange : m.channel.exchange = s.channel.exchange
  outstanding : m.channel.outstanding = s.channel.outstanding
  settings : m.channel.settings = s.channel.settings
  timeouts : m.channel.stats.timeouts = s.channel.stats.timeouts

theorem Session.Keeps.trans (first : s.Keeps m) (second : m.Keeps last) : s.Keeps last where
  exchange := second.exchange.trans first.exchange
  outstanding := second.outstanding.trans first.outstanding
  settings := second.settings.trans first.settings
  timeouts := second.timeouts.trans first.timeouts

theorem hangUp_of_deaf {c : Channel Nat} (deaf : c.outstanding = some slot)
    (taken : slot.listening = false) : c.hangUp = c := by
  simp only [hangUp, deaf, taken, Bool.false_eq_true, if_false]

/-- Who comes for a slot that is taken gets nothing. -/
theorem receive_of_deaf {c : Channel Nat} (deaf : c.outstanding = some slot)
    (taken : slot.listening = false) :
    c.receive r =
      if r.isConfirm then
        (.error .staleResponse, { c with stats := { c.stats with stale := c.stats.stale + 1 } })
      else (.error (.unsolicitedEvent r.header.message), c) := by
  simp only [receive, deaf, taken, Bool.false_eq_true, and_false, if_false]

theorem not_locked_of_stage (found : s.channel.exchange = some e) (out : e.stage ≠ .inHand) :
    s.channel.locked = false := by
  obtain ⟨pending, sequence, attempt, stage⟩ := e
  cases stage with
  | inHand => exact absurd rfl out
  | ready | waiting | ending => simp only [locked, found]

/-- A move that comes while a send waits whose slot is taken has nothing to do with the send, unless
it is a timeout, and does the same if the send has got further. -/
theorem act_altered (further : Exchange Nat) (timeouts : Nat)
    (found : s.channel.exchange = some e) (waiting : e.stage = .waiting deadline .empty)
    (deaf : s.channel.outstanding = some slot) (taken : slot.listening = false)
    (inTime : ∀ now, move ≠ .expire now) (out : further.stage ≠ .inHand)
    (possible : s.act? move = some (after, reaction)) :
    s.Keeps after ∧
      (s.altered further timeouts).act? move = some (after.altered further timeouts, reaction) := by
  have unlocked : s.channel.locked = false := not_locked_of_stage found (by rw [waiting]; simp)
  have free : (s.altered further timeouts).channel.locked = false := not_locked_of_stage rfl out
  have others : (s.altered further timeouts).channel.outstanding = some slot := deaf
  cases move
  case submit command wait | attach | unlink =>
    cases possible
    exact ⟨⟨rfl, rfl, rfl, rfl⟩, rfl⟩
  case hangUp =>
    rw [Session.act?, unlocked, if_neg Bool.false_ne_true, hangUp_of_deaf deaf taken] at possible
    rw [Session.act?, free, if_neg Bool.false_ne_true, hangUp_of_deaf others taken]
    cases possible
    exact ⟨⟨rfl, rfl, rfl, rfl⟩, rfl⟩
  case receive r =>
    rw [Session.act?, unlocked, if_neg Bool.false_ne_true, receive_of_deaf deaf taken] at possible
    rw [Session.act?, free, if_neg Bool.false_ne_true, receive_of_deaf others taken]
    cases confirms : r.isConfirm with
    | true
    | false =>
      rw [confirms] at possible
      cases possible
      exact ⟨⟨rfl, rfl, rfl, rfl⟩, rfl⟩
  case take =>
    simp only [Session.act?, open?, found, Option.map_none, reduceCtorEq] at possible
  case expire now => exact absurd rfl (inTime now)
  case proceed =>
    obtain ⟨e', same, step⟩ := advanced rfl possible
    obtain rfl := Option.some.inj (found.symm.trans same)
    cases step with
    | unframed stage | launched stage | left stage => cases waiting.symm.trans stage
  case transmitted =>
    obtain ⟨e', same, step⟩ := advanced rfl possible
    obtain rfl := Option.some.inj (found.symm.trans same)
    cases step with
    | refused stage | passed stage => cases waiting.symm.trans stage
  case resume =>
    obtain ⟨e', same, step⟩ := advanced rfl possible
    obtain rfl := Option.some.inj (found.symm.trans same)
    cases step with
    | resumed stage | cutOff stage => cases waiting.symm.trans stage

theorem run_cons {rest : List Move} {reactions : List Reaction}
    (possible : s.act? move = some (after, reaction))
    (made : after.run? rest = some (last, reactions)) :
    s.run? (move :: rest) = some (last, reaction :: reactions) := by
  simp only [Session.run?, possible, Option.bind_some, made, Option.map_some]

/-- The same for any number of moves. -/
theorem run_altered (further : Exchange Nat) (timeouts : Nat) {between : List Move}
    {reactions : List Reaction} (found : s.channel.exchange = some e)
    (waiting : e.stage = .waiting deadline .empty) (deaf : s.channel.outstanding = some slot)
    (taken : slot.listening = false) (inTime : ∀ move ∈ between, ∀ now, move ≠ .expire now)
    (out : further.stage ≠ .inHand) (made : s.run? between = some (last, reactions)) :
    s.Keeps last ∧
      (s.altered further timeouts).run? between = some (last.altered further timeouts, reactions) := by
  induction between generalizing s reactions with
  | nil =>
      cases made
      exact ⟨⟨rfl, rfl, rfl, rfl⟩, rfl⟩
  | cons move rest inductionHypothesis =>
      obtain ⟨⟨after, reaction⟩, possible, made⟩ := Option.bind_eq_some_iff.mp made
      obtain ⟨⟨final, later⟩, ran, result⟩ := Option.map_eq_some_iff.mp made
      cases result
      obtain ⟨kept, moved⟩ := act_altered further timeouts found waiting deaf taken
        (inTime move List.mem_cons_self) out possible
      obtain ⟨stillKept, ranToo⟩ := inductionHypothesis (kept.exchange.trans found)
        (kept.outstanding.trans deaf) (fun move member => inTime move (List.mem_cons_of_mem _ member))
        ran
      exact ⟨kept.trans stillKept, run_cons moved ranToo⟩

/-! ### The timeout -/

/-- The send after its attempt has timed out. -/
def Exchange.retried (attempts : Nat) (e : Exchange Nat) : Exchange Nat :=
  if e.attempt + 1 < attempts then { e with attempt := e.attempt + 1, stage := .ready }
  else { e with stage := .ending (.error .timeout) }

theorem leave_retried (attempts : Nat) (mailbox : Mailbox) :
    (e.retried attempts).leave mailbox = e.retried attempts := by
  unfold Exchange.retried
  split <;> rfl

theorem stage_retried_ne (attempts : Nat) : (e.retried attempts).stage ≠ .inHand := by
  unfold Exchange.retried
  split <;> simp

theorem act_expire (found : s.channel.exchange = some e)
    (waiting : e.stage = .waiting deadline .empty) :
    s.act? (.expire now) =
      if deadline ≤ now then
        some (s.altered (e.retried s.channel.attempts) (s.channel.stats.timeouts + 1), .quiet)
      else none := by
  simp only [Session.act?, expire?, found, waiting]
  split <;> rfl

/-! ### The halves -/

/-- A confirm that is received in two halves is received as if at once, whatever comes between. If its
attempt does not time out meanwhile, it is as if the confirm came before what comes between. If the
attempt times out, it is as if the confirm came directly after that, and before the rest. -/
theorem received_in_halves {between : List Move} {reactions : List Reaction}
    (found : s.channel.exchange = some e) (waiting : e.stage = .waiting deadline .empty)
    (confirms : r.isConfirm = true) (outstanding : s.channel.outstanding = some slot)
    (listening : slot.listening = true) (matched : slot.answeredBy r = true)
    (inTime : ∀ move ∈ between, ∀ now, move ≠ .expire now)
    (made : (s.claim slot).run? between = some (m, reactions)) :
    s.run? (.receive r :: between) =
        some (m.deposit (.holds r), .answered (.ok ()) :: reactions) ∧
      ∀ now last, m.act? (.expire now) = some (last, .quiet) →
        s.run? (.expire now :: .receive r :: between) =
          some (last, .quiet :: .answered (.ok ()) :: reactions) := by
  have ran (further : Exchange Nat) (timeouts : Nat) (out : further.stage ≠ .inHand) :=
    run_altered (s := s.claim slot) further timeouts found waiting rfl rfl inTime out made
  have unlocked : s.channel.locked = false := not_locked_of_stage found (by rw [waiting]; simp)
  constructor
  · have deposited : e.leave (.holds r) = { e with stage := .waiting deadline (.holds r) } := by
      rw [Exchange.leave, waiting]
    obtain ⟨kept, ranAfter⟩ := ran (e.leave (.holds r)) s.channel.stats.timeouts
      (by rw [deposited]; simp)
    have before : (s.claim slot).deposit (.holds r) =
        (s.claim slot).altered (e.leave (.holds r)) s.channel.stats.timeouts := by
      show Session.mk { s.channel with outstanding := _, exchange := s.channel.exchange.map _ } _ = _
      rw [found]
      rfl
    have after : m.deposit (.holds r) =
        m.altered (e.leave (.holds r)) s.channel.stats.timeouts := by
      show Session.mk { m.channel with exchange := m.channel.exchange.map _ } _ = _
      rw [kept.exchange, show (s.claim slot).channel.exchange = some e from found, Option.map_some,
        show s.channel.stats.timeouts = m.channel.stats.timeouts from kept.timeouts.symm]
      rfl
    refine run_cons (act_receive unlocked confirms outstanding listening matched) ?_
    rw [before, ranAfter, after]
  · intro now last expired
    have out := stage_retried_ne (e := e) s.channel.attempts
    obtain ⟨kept, ranAfter⟩ := ran _ (s.channel.stats.timeouts + 1) out
    have sameAttempts : m.channel.attempts = s.channel.attempts :=
      congrArg (max ·.maximumAttempts 1) kept.settings
    rw [act_expire (kept.exchange.trans found) waiting] at expired
    split at expired
    case isFalse => cases expired
    case isTrue due =>
      cases expired
      have timedOut : s.act? (.expire now) =
          some (s.altered (e.retried s.channel.attempts) (s.channel.stats.timeouts + 1), .quiet) := by
        rw [act_expire found waiting, if_pos due]
      -- Nothing is left for a send that does not wait any more.
      have lost : ((s.altered (e.retried s.channel.attempts)
          (s.channel.stats.timeouts + 1)).claim slot).deposit (.holds r) =
            (s.claim slot).altered (e.retried s.channel.attempts)
              (s.channel.stats.timeouts + 1) := by
        show Session.altered ((e.retried _).leave _) _ (s.claim slot) = _
        rw [leave_retried]
      have received := act_receive (s := s.altered (e.retried s.channel.attempts)
        (s.channel.stats.timeouts + 1)) (not_locked_of_stage rfl out) confirms outstanding listening
        matched
      refine run_cons timedOut (run_cons received ?_)
      rw [lost, ranAfter, sameAttempts,
        show m.channel.stats.timeouts = s.channel.stats.timeouts from kept.timeouts]

end TargetWakeTime.Host.Channel
