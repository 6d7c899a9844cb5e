import TargetWakeTime.Proofs.Host.Listening

/-!
Contract: confirms that are accepted for a send that does not wait for them.

Owns:
- the two kinds: those that race with a timeout, and those that come for a frame which the link refused;
- that each timeout is raced by one confirm at most, and that at most one is stranded for each frame
  that was refused.

While the link has a frame in hand, confirms have to wait. If the link then refuses the frame, the
first of them that matches is accepted, though the send has ended: its slot stays outstanding until it
leaves the channel. No timeout is needed for that.
-/

namespace TargetWakeTime.Host.Channel

variable {s after : Session} {h : History} {move : Move} {reaction : Reaction} {step : Step}
  {e : Exchange Nat} {c : Channel Nat} {kind : Exchange Nat → Bool}

/-! ### Views of a history -/

/-- The send whose attempt times out in a step. -/
def Step.expired? (step : Step) : Option Nat :=
  match step.move, step.before.channel.exchange with
  | .expire _, some e => some e.caller
  | _, _ => none

/-- The send whose frame the link refuses in a step. -/
def Step.refused? (step : Step) : Option Nat :=
  match step.move, step.before.channel.exchange with
  | .transmitted _ (.error _), some e => some e.caller
  | _, _ => none

/-- The send that a confirm is accepted for in a step, if it is of a kind. -/
def Step.accepts? (kind : Exchange Nat → Bool) (step : Step) : Option Nat :=
  match step.move, step.reaction, step.before.channel.exchange with
  | .receive _, .answered (.ok ()), some e => if kind e then some e.caller else none
  | _, _, _ => none

namespace History

/-- The sends whose attempts timed out, in order. -/
def expired (h : History) : List Nat := h.log.filterMap Step.expired?

/-- The sends whose frame the link refused, in order. -/
def refused (h : History) : List Nat := h.log.filterMap Step.refused?

/-- The sends that a confirm was accepted for after their attempt had timed out, in order. -/
def raced (h : History) : List Nat := h.log.filterMap (Step.accepts? Exchange.timedOut)

/-- The sends that a confirm was accepted for after their frame had been refused, in order. -/
def stranded (h : History) : List Nat := h.log.filterMap (Step.accepts? Exchange.turnedDown)

end History

@[simp] theorem expired_record : (h.record step).expired = h.expired ++ step.expired?.toList :=
  filterMap_concat ..

@[simp] theorem refused_record : (h.record step).refused = h.refused ++ step.refused?.toList :=
  filterMap_concat ..

@[simp] theorem raced_record :
    (h.record step).raced = h.raced ++ (step.accepts? Exchange.timedOut).toList :=
  filterMap_concat ..

@[simp] theorem stranded_record :
    (h.record step).stranded = h.stranded ++ (step.accepts? Exchange.turnedDown).toList :=
  filterMap_concat ..

theorem accepts?_of_exchange {r : Response} (found : s.channel.exchange = some e) :
    Step.accepts? kind ⟨s, .receive r, after, .answered (.ok ())⟩ =
      if kind e then some e.caller else none := by
  simp only [Step.accepts?, found]

theorem accepts?_of_isOwn (own : move.isOwn = true) :
    Step.accepts? kind ⟨s, move, after, reaction⟩ = none := by
  cases move
  case proceed | transmitted | resume | expire => rfl
  all_goals cases own

/-! ### Sends that confirms are still accepted for -/

/-- The send that has the channel, if it is of a kind and its slot is listened to. -/
def heeded (kind : Exchange Nat → Bool) (c : Channel Nat) : List Nat :=
  (c.exchange.toList.filter fun e => kind e && c.outstanding.any (·.listening)).map (·.caller)

theorem heeded_of_exchange (found : c.exchange = some e) :
    heeded kind c = if kind e && c.outstanding.any (·.listening) then [e.caller] else [] := by
  rw [heeded, found, Option.toList_some, List.filter_singleton]
  cases kind e && c.outstanding.any (·.listening) <;> rfl

theorem heeded_of_free (free : c.exchange = none) : heeded kind c = [] := by
  rw [heeded, free]
  rfl

theorem heeded_of_other (found : c.exchange = some e) (other : kind e = false) :
    heeded kind c = [] := by
  rw [heeded_of_exchange found, other]
  rfl

theorem heeded_of_deaf (deaf : c.outstanding.any (·.listening) = false) : heeded kind c = [] := by
  cases found : c.exchange with
  | none => exact heeded_of_free found
  | some e => rw [heeded_of_exchange found, deaf, Bool.and_false, if_neg Bool.false_ne_true]

/-- Every send of a kind that a confirm is accepted for in a step, or that one may be accepted for
afterwards, was such a send before or becomes one in this step. -/
def Step.Draws (kind : Exchange Nat → Bool) (becomes? : Step → Option Nat) (step : Step) : Prop :=
  ((step.accepts? kind).toList ++ heeded kind step.after.channel).Sublist
    (heeded kind step.before.channel ++ (becomes? step).toList)

variable {becomes? : Step → Option Nat}

theorem draws_of_nothing (nobody : step.accepts? kind = none)
    (nothing : heeded kind step.after.channel = []) : step.Draws kind becomes? := by
  rw [Step.Draws, nobody, nothing]
  exact List.nil_sublist _

theorem draws_of_same (nobody : step.accepts? kind = none)
    (same : step.after.channel.exchange = step.before.channel.exchange)
    (sameSlot : step.after.channel.outstanding = step.before.channel.outstanding) :
    step.Draws kind becomes? := by
  rw [Step.Draws, nobody, heeded, heeded, same, sameSlot]
  exact List.sublist_append_left _ _

/-- A send that becomes one of a kind. -/
theorem draws_of_becoming {e' : Exchange Nat} (nobody : step.accepts? kind = none)
    (becoming : becomes? step = some e.caller) (moved : step.after.channel.exchange = some e')
    (sameCaller : e'.caller = e.caller) : step.Draws kind becomes? := by
  rw [Step.Draws, nobody, becoming, heeded_of_exchange moved, sameCaller]
  refine List.Sublist.trans ?_ (List.sublist_append_right _ _)
  split
  · exact List.Sublist.refl _
  · exact List.nil_sublist _

/-- Moves of others bring nothing new, as long as a send that begins is not of the kind. -/
theorem draws_of_aside (fresh : ∀ e : Exchange Nat, e.stage = .ready → e.attempt = 0 → kind e = false)
    (other : move.isOwn = false) (step : Acted s move after reaction) :
    Step.Draws kind becomes? ⟨s, move, after, reaction⟩ := by
  cases step with
  | submitted | attached | unlinked | unheard | unsolicited | stale | turnedAway =>
      exact draws_of_same rfl rfl rfl
  | hungUp => exact draws_of_nothing rfl (heeded_of_deaf rfl)
  | taken => exact draws_of_nothing rfl (heeded_of_other rfl (fresh _ rfl rfl))
  | @confirmed r slot unlocked confirms outstanding listening =>
      have deaf : heeded kind (s.channel.complete slot (.holds r)) = [] := heeded_of_deaf rfl
      cases found : s.channel.exchange with
      | none => exact draws_of_nothing (by simp only [Step.accepts?, found]) deaf
      | some e =>
          have before : heeded kind s.channel = if kind e then [e.caller] else [] := by
            rw [heeded_of_exchange found, outstanding, Option.any_some, listening, Bool.and_true]
          rw [Step.Draws, accepts?_of_exchange found, deaf, before, List.append_nil]
          refine List.Sublist.trans ?_ (List.sublist_append_left _ _)
          cases kind e <;> exact List.Sublist.refl _
  | launched | left => cases other
  | staged own => cases own.symm.trans other

theorem not_timedOut_of_encode {command : Command} {hostId : HostId} {error : CommandError}
    (unframed : command.encode hostId = .error error) :
    Exchange.timedOut { e with stage := .ending (.error error) } = false ∧
      Exchange.turnedDown { e with stage := .ending (.error error) } = false := by
  obtain ⟨defect, rfl⟩ := exists_malformed_of_encode unframed
  exact ⟨rfl, rfl⟩

theorem not_timedOut_of_outcomeOf (r : Response) :
    Exchange.timedOut { e with stage := .ending (outcomeOf r) } = false ∧
      Exchange.turnedDown { e with stage := .ending (outcomeOf r) } = false := by
  unfold outcomeOf
  split <;> exact ⟨rfl, rfl⟩

/-- Only a timeout makes a send one that has timed out. -/
theorem draws_timedOut (possible : s.act? move = some (after, reaction)) :
    Step.Draws Exchange.timedOut Step.expired? ⟨s, move, after, reaction⟩ := by
  cases own : move.isOwn with
  | false =>
      refine draws_of_aside (fun e ready first => ?_) own (acted possible)
      rw [Exchange.timedOut, ready, first]
      rfl
  | true =>
      obtain ⟨e, found, step⟩ := advanced own possible
      have nobody {after : Session} {reaction : Reaction} :
          Step.accepts? Exchange.timedOut ⟨s, move, after, reaction⟩ = none := accepts?_of_isOwn own
      cases step with
      | unframed ready failed =>
          exact draws_of_nothing nobody (heeded_of_other rfl (not_timedOut_of_encode failed).1)
      | launched | passed | cutOff => exact draws_of_nothing nobody (heeded_of_other rfl rfl)
      | @refused _ error =>
          refine draws_of_nothing nobody (heeded_of_other rfl ?_)
          cases error <;> rfl
      | @resumed _ r =>
          exact draws_of_nothing nobody (heeded_of_other rfl (not_timedOut_of_outcomeOf r).1)
      | retried | exhausted =>
          exact draws_of_becoming (e := e) nobody (by simp only [Step.expired?, found]) rfl rfl
      | left => exact draws_of_nothing nobody (heeded_of_free rfl)

/-- Only a refusal by the link makes a send one that confirms are accepted for after that. -/
theorem draws_turnedDown (attentive : s.Attentive)
    (possible : s.act? move = some (after, reaction)) :
    Step.Draws Exchange.turnedDown Step.refused? ⟨s, move, after, reaction⟩ := by
  cases own : move.isOwn with
  | false =>
      refine draws_of_aside (fun e ready _ => ?_) own (acted possible)
      rw [Exchange.turnedDown, ready]
  | true =>
      obtain ⟨e, found, step⟩ := advanced own possible
      have nobody {after : Session} {reaction : Reaction} :
          Step.accepts? Exchange.turnedDown ⟨s, move, after, reaction⟩ = none :=
        accepts?_of_isOwn own
      cases step with
      | unframed ready failed =>
          exact draws_of_nothing nobody (heeded_of_other rfl (not_timedOut_of_encode failed).2)
      | launched | passed | retried | exhausted =>
          exact draws_of_nothing nobody (heeded_of_other rfl rfl)
      | refused =>
          exact draws_of_becoming (e := e) nobody (by simp only [Step.refused?, found]) rfl rfl
      | @resumed _ r =>
          exact draws_of_nothing nobody (heeded_of_other rfl (not_timedOut_of_outcomeOf r).2)
      | cutOff closed =>
          -- Whoever learned that the link is lost has nobody listening any more.
          refine draws_of_nothing nobody (heeded_of_deaf ?_)
          show s.channel.outstanding.any (·.listening) = false
          cases outstanding : s.channel.outstanding with
          | none => rfl
          | some slot => exact attentive.not_listening found closed (by simp) outstanding
      | left => exact draws_of_nothing nobody (heeded_of_free rfl)

/-- What holds of unread confirms at any time: each of them, and the one that may still come, belongs to
a timeout or a refusal of its own. -/
structure Unread (h : History) : Prop where
  raced : (h.raced ++ heeded Exchange.timedOut h.session.channel).Sublist h.expired
  stranded : (h.stranded ++ heeded Exchange.turnedDown h.session.channel).Sublist h.refused

theorem unread_start (settings : Settings) : Unread { session := { channel := { settings } } } where
  raced := List.Sublist.slnil
  stranded := List.Sublist.slnil

theorem sublist_of_draws {read fed : List Nat} (draws : step.Draws kind becomes?)
    (before : (read ++ heeded kind step.before.channel).Sublist fed) :
    (read ++ (step.accepts? kind).toList ++ heeded kind step.after.channel).Sublist
      (fed ++ (becomes? step).toList) := by
  rw [List.append_assoc]
  refine (List.Sublist.append (List.Sublist.refl read) draws).trans ?_
  rw [← List.append_assoc]
  exact before.append (List.Sublist.refl _)

theorem unread_record (attentive : h.session.Attentive) (unread : Unread h)
    (possible : h.session.act? move = some (after, reaction)) :
    Unread (h.record ⟨h.session, move, after, reaction⟩) where
  raced := by
    rw [raced_record, expired_record]
    exact sublist_of_draws (draws_timedOut possible) unread.raced
  stranded := by
    rw [stranded_record, refused_record]
    exact sublist_of_draws (draws_turnedDown attentive possible) unread.stranded

end TargetWakeTime.Host.Channel
