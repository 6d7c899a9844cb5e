import TargetWakeTime.Proofs.Host.Unread

/-!
Contract: the counts of a channel, over any history.

Owns:
- what they count: frames that the link took, attempts that timed out, sends that were cut off while
  they waited for their confirm, and confirms;
- that the frames the link took balance with what became of them: timed out, answered by the chip, or
  cut off with the link;
- that frames count as retries exactly if they are not the first attempt of their send, and that
  each of them follows a timeout;
- that every confirm is stale, resolves a send, races with a timeout, or is stranded at a frame that the
  link refused; the last two are counted nowhere.

Each step is booked on its own; the counts of a history follow step by step.
-/

namespace TargetWakeTime.Host.Channel

variable {s after : Session} {h : History} {move : Move} {reaction : Reaction} {step : Step}
  {e : Exchange Nat} {attempts : Nat}

/-! ### Views of a history -/

/-- The send whose frame the link takes in a step. -/
def Step.passed? (step : Step) : Option Nat :=
  match step.move, step.before.channel.exchange with
  | .transmitted _ (.ok ()), some e => some e.caller
  | _, _ => none

/-- The send that waits when the link is lost in a step. -/
def Step.cutOff? (step : Step) : Option Nat :=
  match step.move, step.before.channel.exchange with
  | .hangUp, some e => if e.stage.isWaiting then some e.caller else none
  | _, _ => none

/-- Whether a confirm comes in a step. -/
def Step.isConfirm (step : Step) : Bool :=
  match step.move with
  | .receive r => r.isConfirm
  | _ => false

/-- Whether the link takes a frame in a step that is not the first attempt of its send, after these
steps. -/
def Step.isRetransmission (earlier : List Step) (step : Step) : Bool :=
  step.passed?.any fun number =>
    1 < (({ session := step.before, log := earlier } : History).frames number).length

/-- The frames that the link took and that were not the first attempt of their send, after these
steps. -/
def retransmissions (earlier : List Step) : List Step → Nat
  | [] => 0
  | step :: rest =>
      (if step.isRetransmission earlier then 1 else 0) + retransmissions (earlier ++ [step]) rest

namespace History

/-- The sends whose frames the link took, in order. -/
def passed (h : History) : List Nat := h.log.filterMap Step.passed?

/-- The sends that waited when the link was lost, in order. -/
def cutOff (h : History) : List Nat := h.log.filterMap Step.cutOff?

/-- The confirms that came. -/
def confirms (h : History) : Nat := h.log.countP Step.isConfirm

/-- The frames that the link took and that were not the first attempt of their send. -/
def retransmissions (h : History) : Nat := Channel.retransmissions [] h.log

end History

@[simp] theorem passed_record : (h.record step).passed = h.passed ++ step.passed?.toList :=
  filterMap_concat ..

@[simp] theorem cutOff_record : (h.record step).cutOff = h.cutOff ++ step.cutOff?.toList :=
  filterMap_concat ..

@[simp] theorem confirms_record :
    (h.record step).confirms = h.confirms + if step.isConfirm then 1 else 0 := by
  rw [History.confirms, History.record, List.countP_append, List.countP_singleton]
  rfl

theorem retransmissions_concat (earlier log : List Step) (step : Step) :
    retransmissions earlier (log ++ [step]) =
      retransmissions earlier log + if step.isRetransmission (earlier ++ log) then 1 else 0 := by
  induction log generalizing earlier with
  | nil => simp [retransmissions]
  | cons first rest inductionHypothesis =>
      rw [List.cons_append, retransmissions, retransmissions, inductionHypothesis,
        List.append_assoc, List.singleton_append, Nat.add_assoc]

@[simp] theorem retransmissions_record :
    (h.record step).retransmissions =
      h.retransmissions + if step.isRetransmission h.log then 1 else 0 :=
  retransmissions_concat [] h.log step

/-! ### The books -/

/-- How many frames are waited on. -/
def waits (c : Channel Nat) : Nat := c.exchange.toList.countP (·.stage.isWaiting)

/-- Whether the present frame is still on its way to the link. -/
def Stage.isComing : Stage → Bool
  | ready | inHand => true
  | waiting .. | ending _ => false

/-- How many frames that are no first attempts are on their way to the link. -/
def repeating (c : Channel Nat) : Nat :=
  c.exchange.toList.countP fun e => decide (0 < e.attempt) && e.stage.isComing

/-- How a send ends without a link. -/
def linkless (number : Nat) : Nat × Outcome := (number, .error .noTransport)

/-- Whether a send is going to end because the link was lost. -/
def Stage.isDoomed : Stage → Bool
  | waiting _ .closed | ending (.error .noTransport) => true
  | ready | inHand | waiting _ .empty | waiting _ (.holds _) | ending _ => false

/-- The end of the send that has the channel, if it ends because the link was lost. -/
def doomed (c : Channel Nat) : List (Nat × Outcome) :=
  (c.exchange.toList.filter (·.stage.isDoomed)).map (linkless ·.caller)

/-- What holds of the counts at any time. -/
structure Booked (h : History) : Prop where
  sent : h.session.channel.stats.sent = h.passed.length
  timeouts : h.session.channel.stats.timeouts = h.expired.length
  retries : h.session.channel.stats.retries = h.retransmissions
  /-- Every frame that the link took has timed out, is answered, cut off, or waited on. -/
  balance : h.passed.length =
    h.expired.length + h.answered.length + h.cutOff.length + waits h.session.channel
  /-- Every frame that is no first attempt follows a timeout. -/
  covered : h.session.channel.stats.retries + repeating h.session.channel ≤
    h.session.channel.stats.timeouts
  doomed : (h.cutOff.map linkless).Sublist (h.ended ++ doomed h.session.channel)
  heard : h.confirms = h.session.channel.stats.stale + h.answered.length + h.raced.length +
    h.stranded.length

theorem booked_start (settings : Settings) :
    Booked { session := { channel := { settings } } } where
  sent := rfl
  timeouts := rfl
  retries := rfl
  balance := rfl
  covered := Nat.le_refl _
  doomed := List.Sublist.slnil
  heard := rfl

variable {c : Channel Nat}

theorem waits_of_exchange (found : c.exchange = some e) :
    waits c = if e.stage.isWaiting then 1 else 0 := by
  rw [waits, found]
  exact List.countP_singleton

theorem repeating_of_exchange (found : c.exchange = some e) :
    repeating c = if decide (0 < e.attempt) && e.stage.isComing then 1 else 0 := by
  rw [repeating, found]
  exact List.countP_singleton

theorem doomed_of_exchange (found : c.exchange = some e) :
    doomed c = if e.stage.isDoomed then [linkless e.caller] else [] := by
  rw [doomed, found, Option.toList_some, List.filter_singleton]
  cases e.stage.isDoomed <;> rfl

/-! ### How steps are booked -/

/-- What a step changes about the counts, and about what they are held against. -/
structure Step.Entered (earlier : List Step) (step : Step) : Prop where
  sent : step.after.channel.stats.sent =
    step.before.channel.stats.sent + step.passed?.toList.length
  timeouts : step.after.channel.stats.timeouts =
    step.before.channel.stats.timeouts + step.expired?.toList.length
  retries : step.after.channel.stats.retries =
    step.before.channel.stats.retries + if step.isRetransmission earlier then 1 else 0
  balance : waits step.before.channel + step.passed?.toList.length =
    step.expired?.toList.length + step.answered?.toList.length + step.cutOff?.toList.length +
      waits step.after.channel
  covered :
    step.after.channel.stats.retries + repeating step.after.channel +
        step.before.channel.stats.timeouts ≤
      step.before.channel.stats.retries + repeating step.before.channel +
        step.after.channel.stats.timeouts
  doomed : (doomed step.before.channel ++ step.cutOff?.toList.map linkless).Sublist
    (step.ended?.toList ++ doomed step.after.channel)
  heard :
    step.after.channel.stats.stale + step.answered?.toList.length +
        (step.accepts? Exchange.timedOut).toList.length +
        (step.accepts? Exchange.turnedDown).toList.length =
      step.before.channel.stats.stale + if step.isConfirm then 1 else 0

theorem booked_record (booked : Booked h)
    (entered : Step.Entered h.log ⟨h.session, move, after, reaction⟩) :
    Booked (h.record ⟨h.session, move, after, reaction⟩) := by
  refine ⟨?_, ?_, ?_, ?_, ?_, ?_, ?_⟩
  · rw [passed_record, List.length_append, ← booked.sent]
    exact entered.sent
  · rw [expired_record, List.length_append, ← booked.timeouts]
    exact entered.timeouts
  · rw [retransmissions_record, ← booked.retries]
    exact entered.retries
  · have balance := entered.balance
    have before := booked.balance
    simp only [passed_record, expired_record, answered_record, cutOff_record, List.length_append]
    dsimp only [History.record] at balance ⊢
    omega
  · have covered := entered.covered
    have before := booked.covered
    dsimp only [History.record] at covered ⊢
    omega
  · rw [cutOff_record, ended_record, List.map_append, List.append_assoc]
    refine (booked.doomed.append (List.Sublist.refl _)).trans ?_
    rw [List.append_assoc]
    exact (List.Sublist.refl _).append entered.doomed
  · have heard := entered.heard
    have before := booked.heard
    simp only [confirms_record, answered_record, raced_record, stranded_record, List.length_append]
    dsimp only [History.record] at heard ⊢
    omega

/-! ### Steps that the counts take no notice of -/

/-- The moves that the counts may take notice of. -/
def Move.isBooked : Move → Bool
  | hangUp | receive _ | transmitted _ (.ok ()) | expire _ => true
  | submit .. | attach | unlink | take | proceed | transmitted _ (.error _) | resume => false

/-- A step that the counts take no notice of. -/
structure Step.Unbooked (step : Step) : Prop where
  passed : step.passed? = none
  expired : step.expired? = none
  cutOff : step.cutOff? = none
  answered : step.answered? = none
  notConfirm : step.isConfirm = false
  notAccepted : ∀ kind, step.accepts? kind = none
  stats : step.after.channel.stats = step.before.channel.stats

theorem unbooked_of_not_isBooked (unbooked : move.isBooked = false)
    (stats : after.channel.stats = s.channel.stats) :
    Step.Unbooked ⟨s, move, after, reaction⟩ := by
  cases move
  case transmitted now outcome =>
    cases outcome with
    | error => exact ⟨rfl, rfl, rfl, rfl, rfl, fun _ => rfl, stats⟩
    | ok => cases unbooked
  case submit | attach | unlink | take | proceed | resume =>
    exact ⟨rfl, rfl, rfl, rfl, rfl, fun _ => rfl, stats⟩
  case hangUp | receive | expire => cases unbooked

variable {earlier : List Step}

theorem entered_of_unbooked (unbooked : step.Unbooked)
    (sameWaits : waits step.after.channel = waits step.before.channel)
    (fewer : repeating step.after.channel ≤ repeating step.before.channel)
    (ends : (doomed step.before.channel).Sublist
      (step.ended?.toList ++ doomed step.after.channel)) : step.Entered earlier := by
  refine ⟨?_, ?_, ?_, ?_, ?_, ?_, ?_⟩
  · rw [unbooked.passed, unbooked.stats]
    rfl
  · rw [unbooked.expired, unbooked.stats]
    rfl
  · rw [Step.isRetransmission, unbooked.passed, unbooked.stats]
    rfl
  · simp [unbooked.passed, unbooked.expired, unbooked.answered, unbooked.cutOff, sameWaits]
  · rw [unbooked.stats]
    omega
  · rw [unbooked.cutOff, Option.toList_none, List.map_nil, List.append_nil]
    exact ends
  · simp [unbooked.answered, unbooked.notAccepted, unbooked.notConfirm, unbooked.stats]

/-- A step beside the send that has the channel. -/
theorem entered_of_aside (unbooked : step.Unbooked)
    (same : step.after.channel.exchange = step.before.channel.exchange) :
    step.Entered earlier := by
  refine entered_of_unbooked unbooked (by rw [waits, same, waits])
    (Nat.le_of_eq (by rw [repeating, same, repeating])) ?_
  rw [doomed, doomed, same]
  exact List.sublist_append_right _ _

/-- A step of the send that has the channel. -/
theorem entered_of_moved {e' : Exchange Nat} (unbooked : step.Unbooked)
    (found : step.before.channel.exchange = some e) (moved : step.after.channel.exchange = some e')
    (sameCaller : e'.caller = e.caller) (sameWaits : e'.stage.isWaiting = e.stage.isWaiting)
    (fewer : e'.stage.isComing = true → e.stage.isComing = true ∧ e'.attempt = e.attempt)
    (staysDoomed : e.stage.isDoomed = true → e'.stage.isDoomed = true) :
    step.Entered earlier := by
  refine entered_of_unbooked unbooked ?_ ?_ ?_
  · rw [waits_of_exchange moved, waits_of_exchange found, sameWaits]
  · rw [repeating_of_exchange moved, repeating_of_exchange found]
    cases coming : e'.stage.isComing with
    | false => simp
    | true =>
        obtain ⟨wasComing, sameAttempt⟩ := fewer coming
        exact Nat.le_of_eq (by rw [wasComing, sameAttempt])
  · rw [doomed_of_exchange moved, doomed_of_exchange found]
    cases isDoomed : e.stage.isDoomed with
    | false => simp
    | true =>
        rw [staysDoomed isDoomed, sameCaller]
        exact List.sublist_append_right _ _

/-! ### Steps that the counts take notice of -/

theorem entered_of_passed {now deadline : Nat} (found : s.channel.exchange = some e)
    (inHand : e.stage = .inHand)
    (frames : (({ session := s, log := earlier } : History).frames e.caller).length = e.attempt + 1)
    (stats : after.channel.stats =
      { s.channel.stats with
        sent := s.channel.stats.sent + 1
        retries := s.channel.stats.retries + if 0 < e.attempt then 1 else 0 })
    (moved : after.channel.exchange = some { e with stage := .waiting deadline .empty }) :
    Step.Entered earlier ⟨s, .transmitted now (.ok ()), after, .quiet⟩ := by
  have passed : Step.passed? ⟨s, .transmitted now (.ok ()), after, .quiet⟩ = some e.caller := by
    simp only [Step.passed?, found]
  refine ⟨?_, ?_, ?_, ?_, ?_, ?_, ?_⟩
  · rw [passed, stats]
    rfl
  · rw [stats]
    rfl
  · rw [Step.isRetransmission, passed]
    simp [stats, frames]
  · rw [passed, waits_of_exchange found, waits_of_exchange moved, inHand]
    rfl
  · rw [repeating_of_exchange found, repeating_of_exchange moved, inHand]
    simp [stats, Stage.isComing]
  · rw [doomed_of_exchange found, doomed_of_exchange moved, inHand]
    exact List.Sublist.slnil
  · rw [stats]
    rfl

theorem entered_of_expired {now deadline : Nat} {e' : Exchange Nat}
    (found : s.channel.exchange = some e) (waiting : e.stage = .waiting deadline .empty)
    (stats : after.channel.stats =
      { s.channel.stats with timeouts := s.channel.stats.timeouts + 1 })
    (moved : after.channel.exchange = some e') (ended : e'.stage.isWaiting = false) :
    Step.Entered earlier ⟨s, .expire now, after, .quiet⟩ := by
  have expired : Step.expired? ⟨s, .expire now, after, .quiet⟩ = some e.caller := by
    simp only [Step.expired?, found]
  have atMostOne : repeating after.channel ≤ 1 := by
    rw [repeating_of_exchange moved]
    split <;> omega
  refine ⟨?_, ?_, ?_, ?_, ?_, ?_, ?_⟩
  · rw [stats]
    rfl
  · rw [expired, stats]
    rfl
  · rw [stats]
    rfl
  · rw [expired, waits_of_exchange found, waits_of_exchange moved, waiting, ended]
    rfl
  · simp only [stats]
    omega
  · rw [doomed_of_exchange found, waiting]
    exact List.nil_sublist _
  · rw [stats]
    rfl

/-- A response that resolves no send. -/
theorem entered_of_unread {r : Response} {accepted : Except CommandError Unit}
    (nobody : Step.answered? ⟨s, .receive r, after, .answered accepted⟩ = none)
    (stats : after.channel.stats = { s.channel.stats with stale := after.channel.stats.stale })
    (same : after.channel.exchange = s.channel.exchange)
    (heard : after.channel.stats.stale +
        (Step.accepts? Exchange.timedOut ⟨s, .receive r, after, .answered accepted⟩).toList.length +
        (Step.accepts? Exchange.turnedDown ⟨s, .receive r, after, .answered accepted⟩).toList.length =
      s.channel.stats.stale + if r.isConfirm then 1 else 0) :
    Step.Entered earlier ⟨s, .receive r, after, .answered accepted⟩ := by
  refine ⟨congrArg (·.sent) stats, congrArg (·.timeouts) stats, congrArg (·.retries) stats,
    ?_, ?_, ?_, ?_⟩
  · rw [nobody, waits, waits, same]
    simp [Step.passed?, Step.expired?, Step.cutOff?]
  · exact Nat.le_of_eq (by rw [stats, repeating, repeating, same])
  · rw [doomed, doomed, same]
    simp [Step.cutOff?, Step.ended?]
  · rw [nobody]
    exact heard

/-- Confirms that come for nobody are counted, and nothing else. -/
theorem entered_of_stale {r : Response} (coherent : s.Coherent) (confirms : r.isConfirm = true)
    (unmatched : ∀ slot, s.channel.outstanding = some slot → slot.listening = true →
      slot.answeredBy r = false)
    (stats : after.channel.stats = { s.channel.stats with stale := s.channel.stats.stale + 1 })
    (same : after.channel.exchange = s.channel.exchange) :
    Step.Entered earlier ⟨s, .receive r, after, .answered (.error .staleResponse)⟩ := by
  refine entered_of_unread ?_ (by rw [stats]) same ?_
  · refine answered?_eq_none fun e found waiting answers => ?_
    obtain ⟨slot, outstanding, listening, matched⟩ := coherent.exists_slot found waiting answers
    cases (unmatched slot outstanding listening).symm.trans matched
  · rw [stats, confirms]
    rfl

theorem entered_of_answered {r : Response} {deadline : Nat} (found : s.channel.exchange = some e)
    (waiting : e.stage = .waiting deadline .empty) (answers : s.Confirms e r)
    (stats : after.channel.stats = s.channel.stats)
    (moved : after.channel.exchange = some { e with stage := .waiting deadline (.holds r) }) :
    Step.Entered earlier ⟨s, .receive r, after, .answered (.ok ())⟩ := by
  have isWaiting : e.stage.isWaiting = true := by
    rw [waiting]
    rfl
  have answered : Step.answered? ⟨s, .receive r, after, .answered (.ok ())⟩ = some (e.caller, r) :=
    (answered?_of_exchange found).trans (if_pos ⟨isWaiting, answers⟩)
  obtain ⟨notTimedOut, notTurnedDown⟩ := not_timedOut_of_isWaiting isWaiting
  refine ⟨congrArg (·.sent) stats, congrArg (·.timeouts) stats, congrArg (·.retries) stats,
    ?_, ?_, ?_, ?_⟩
  · rw [answered, waits_of_exchange found, waits_of_exchange moved, waiting]
    rfl
  · rw [repeating_of_exchange found, repeating_of_exchange moved, waiting, stats]
    exact Nat.le_refl _
  · rw [doomed_of_exchange found, waiting]
    exact List.nil_sublist _
  · simp [answered, accepts?_of_exchange found, notTimedOut, notTurnedDown, stats, Step.isConfirm,
      answers.1]

/-- A confirm that is accepted after its attempt timed out, or after its frame was refused, is read by
nobody. -/
theorem entered_of_overdue {r : Response} (found : s.channel.exchange = some e)
    (busy : e.stage.isWaiting = false) (overdue : e.timedOut = true ∨ e.turnedDown = true)
    (confirms : r.isConfirm = true) (stats : after.channel.stats = s.channel.stats)
    (same : after.channel.exchange = s.channel.exchange) :
    Step.Entered earlier ⟨s, .receive r, after, .answered (.ok ())⟩ := by
  have nobody : Step.answered? ⟨s, .receive r, after, .answered (.ok ())⟩ = none :=
    (answered?_of_exchange found).trans (if_neg fun both => by cases busy.symm.trans both.1)
  refine entered_of_unread nobody (by rw [stats]) same ?_
  rw [accepts?_of_exchange found, accepts?_of_exchange found, stats, confirms]
  rcases overdue with timedOut | turnedDown
  · rw [timedOut, not_turnedDown_of_timedOut timedOut]
    rfl
  · have notTimedOut : e.timedOut = false := Bool.eq_false_iff.mpr fun timedOut => by
      cases turnedDown.symm.trans (not_turnedDown_of_timedOut timedOut)
    rw [turnedDown, notTimedOut]
    rfl

theorem entered_of_cutOff {deadline : Nat} (found : s.channel.exchange = some e)
    (waiting : e.stage = .waiting deadline .empty) (stats : after.channel.stats = s.channel.stats)
    (moved : after.channel.exchange = some { e with stage := .waiting deadline .closed }) :
    Step.Entered earlier ⟨s, .hangUp, after, .quiet⟩ := by
  have cutOff : Step.cutOff? ⟨s, .hangUp, after, .quiet⟩ = some e.caller := by
    simp only [Step.cutOff?, found, waiting, Stage.isWaiting, if_true]
  refine ⟨congrArg (·.sent) stats, congrArg (·.timeouts) stats, congrArg (·.retries) stats,
    ?_, ?_, ?_, ?_⟩
  · rw [cutOff, waits_of_exchange found, waits_of_exchange moved, waiting]
    rfl
  · rw [repeating_of_exchange found, repeating_of_exchange moved, waiting, stats]
    exact Nat.le_refl _
  · rw [cutOff, doomed_of_exchange found, doomed_of_exchange moved, waiting]
    exact List.Sublist.refl _
  · rw [stats]
    rfl

/-! ### All steps -/

/-- A confirm that is accepted answers the send that waits, or comes after its attempt timed out or its
frame was refused. -/
theorem entered_of_confirmed {r : Response} {slot : Outstanding} (coherent : s.Coherent)
    (attentive : s.Attentive) (unlocked : s.channel.locked = false)
    (confirms : r.isConfirm = true) (outstanding : s.channel.outstanding = some slot)
    (listening : slot.listening = true) (matched : slot.answeredBy r = true) :
    Step.Entered earlier
      ⟨s, .receive r, { s with channel := s.channel.complete slot (.holds r) },
        .answered (.ok ())⟩ := by
  obtain ⟨e, found, sameMessage, sameSequence⟩ := coherent.ownSlot slot outstanding
  cases busy : e.stage.isWaiting with
  | true =>
      obtain ⟨deadline, waiting⟩ := stage_of_isWaiting busy
      exact entered_of_answered found waiting
        ((answeredBy_iff (coherent.current e found) sameMessage sameSequence confirms).mp matched)
        rfl (exchange_complete_of_waiting (.holds r) found waiting)
  | false =>
      refine entered_of_overdue found busy ?_ confirms rfl
        (exchange_complete_of_busy (.holds r) found busy)
      refine (attentive.listening slot e outstanding listening found).resolve_left fun isOpen => ?_
      have waiting := isWaiting_of_isOpen isOpen (ne_inHand_of_unlocked unlocked found)
      cases busy.symm.trans waiting

/-- Losing the link cuts off the send that waits, and nobody else. -/
theorem entered_of_hangUp (coherent : s.Coherent)
    (possible : s.act? .hangUp = some (after, reaction)) :
    Step.Entered earlier ⟨s, .hangUp, after, reaction⟩ := by
  have aside {after : Session} (stats : after.channel.stats = s.channel.stats)
      (same : after.channel.exchange = s.channel.exchange)
      (nobody : ∀ e, s.channel.exchange = some e → e.stage.isWaiting = false) :
      Step.Entered earlier ⟨s, .hangUp, after, .quiet⟩ := by
    refine entered_of_aside ⟨rfl, rfl, ?_, rfl, rfl, fun _ => rfl, stats⟩ same
    cases found : s.channel.exchange with
    | none => simp only [Step.cutOff?, found]
    | some e => simp [Step.cutOff?, found, nobody e found]
  cases acted possible with
  | unheard => exact aside rfl rfl fun e => not_isWaiting_of_unheard coherent possible
  | @hungUp slot unlocked outstanding listening =>
      obtain ⟨e, found, -, -⟩ := coherent.ownSlot slot outstanding
      cases busy : e.stage.isWaiting with
      | true =>
          obtain ⟨deadline, waiting⟩ := stage_of_isWaiting busy
          exact entered_of_cutOff found waiting rfl
            (exchange_complete_of_waiting .closed found waiting)
      | false =>
          refine aside rfl (exchange_complete_of_busy .closed found busy) fun e' found' => ?_
          rwa [← Option.some.inj (found.symm.trans found')]
  | staged own => cases own

theorem outcome_of_isDoomed {outcome : Outcome} (doomed : (Stage.ending outcome).isDoomed = true) :
    outcome = .error .noTransport := by
  cases outcome with
  | ok => cases doomed
  | error error => cases error <;> first | rfl | cases doomed

/-- What the send that has the channel does in moves of its own. -/
theorem entered_of_advanced (attempted : Attempted attempts h)
    (found : h.session.channel.exchange = some e)
    (step : Advanced h.session e move after reaction) :
    Step.Entered h.log ⟨h.session, move, after, reaction⟩ := by
  cases step with
  | unframed ready =>
      refine entered_of_moved (unbooked_of_not_isBooked rfl rfl) found rfl rfl ?_ ?_ ?_
      · rw [ready]
        rfl
      · exact fun coming => by cases coming
      · exact fun doomed => by rw [ready] at doomed; cases doomed
  | launched ready =>
      refine entered_of_moved (unbooked_of_not_isBooked rfl rfl) found rfl rfl ?_ ?_ ?_
      · rw [ready]
        rfl
      · exact fun _ => ⟨by rw [ready]; rfl, rfl⟩
      · exact fun doomed => by rw [ready] at doomed; cases doomed
  | refused inHand =>
      refine entered_of_moved (unbooked_of_not_isBooked rfl rfl) found rfl rfl ?_ ?_ ?_
      · rw [inHand]
        rfl
      · exact fun coming => by cases coming
      · exact fun doomed => by rw [inHand] at doomed; cases doomed
  | passed inHand =>
      exact entered_of_passed found inHand
        ((attempted.current e found).of_out (by rw [inHand]; rfl)).1 rfl rfl
  | resumed holds =>
      refine entered_of_moved (unbooked_of_not_isBooked rfl rfl) found rfl rfl ?_ ?_ ?_
      · rw [holds]
        rfl
      · exact fun coming => by cases coming
      · exact fun doomed => by rw [holds] at doomed; cases doomed
  | cutOff closed =>
      refine entered_of_moved (unbooked_of_not_isBooked rfl rfl) found rfl rfl ?_ ?_ ?_
      · rw [closed]
        rfl
      · exact fun coming => by cases coming
      · exact fun _ => rfl
  | retried waiting => exact entered_of_expired found waiting rfl rfl rfl
  | exhausted waiting => exact entered_of_expired found waiting rfl rfl rfl
  | @left outcome leaving =>
      refine entered_of_unbooked (unbooked_of_not_isBooked rfl rfl) ?_ (Nat.zero_le _) ?_
      · rw [waits_of_exchange found, leaving]
        rfl
      · rw [doomed_of_exchange found, leaving]
        cases doomed : (Stage.ending outcome).isDoomed with
        | false => exact List.nil_sublist _
        | true =>
            rw [outcome_of_isDoomed doomed]
            exact List.Sublist.refl _

/-- Every step is booked. -/
theorem entered (coherent : h.session.Coherent) (attentive : h.session.Attentive)
    (attempted : Attempted attempts h)
    (possible : h.session.act? move = some (after, reaction)) :
    Step.Entered h.log ⟨h.session, move, after, reaction⟩ := by
  cases own : move.isOwn with
  | true =>
      obtain ⟨e, found, step⟩ := advanced own possible
      exact entered_of_advanced attempted found step
  | false =>
      cases acted possible with
      | unheard | hungUp => exact entered_of_hangUp coherent possible
      | unsolicited event =>
          refine entered_of_unread ?_ rfl rfl (by rw [event]; rfl)
          exact answered?_eq_none fun e _ _ confirms => by cases event.symm.trans confirms.1
      | stale confirms unmatched => exact entered_of_stale coherent confirms unmatched rfl rfl
      | confirmed unlocked confirms found listening matched =>
          exact entered_of_confirmed coherent attentive unlocked confirms found listening matched
      | taken free =>
          refine entered_of_unbooked (unbooked_of_not_isBooked rfl rfl) ?_ (Nat.zero_le _) ?_
          · rw [waits, waits, free]
            rfl
          · rw [doomed, free]
            exact List.nil_sublist _
      | submitted | attached | unlinked | turnedAway =>
          exact entered_of_aside (unbooked_of_not_isBooked rfl rfl) rfl
      | launched | left => cases own
      | staged isOwn => cases own.symm.trans isOwn

/-- What the counts of a channel say about its history. -/
structure Balanced (h : History) : Prop where
  sent : h.session.channel.stats.sent = h.passed.length
  timeouts : h.session.channel.stats.timeouts = h.expired.length
  /-- Once no send has the channel, every frame that was sent has timed out, resolved its send, or
  been cut off. -/
  settled : h.session.channel.exchange = none →
    h.session.channel.stats.sent = h.session.channel.stats.timeouts +
      (h.ended.filter (fromChip ·.2)).length + h.cutOff.length
  /-- A send that is cut off while it waits ends with that, once. -/
  cutOff : h.session.channel.exchange = none →
    h.cutOff.Nodup ∧ ∀ number ∈ h.cutOff, (number, .error .noTransport) ∈ h.ended
  retries : h.session.channel.stats.retries = h.retransmissions
  retried : h.session.channel.stats.retries ≤ h.session.channel.stats.timeouts
  /-- Once no send has the channel, every confirm was stale, resolved its send, raced with a timeout, or
  came for a frame that was refused. -/
  heard : h.session.channel.exchange = none →
    h.session.channel.stats.stale + (h.ended.filter (fromChip ·.2)).length + h.raced.length +
      h.stranded.length = h.confirms
  /-- A confirm that races with a timeout has that timeout for itself. -/
  raced : h.raced.Sublist h.expired
  /-- A confirm that comes for a refused frame has that refusal for itself. -/
  stranded : h.stranded.Sublist h.refused

/-- The sends that the chip resolved are those that a confirm came for. -/
theorem length_answered (correlated : Correlated h) (free : h.session.channel.exchange = none) :
    h.answered.length = (h.ended.filter (fromChip ·.2)).length := by
  have answered := congrArg List.length correlated.answered
  rwa [pending_of_free free, List.append_nil, List.length_map] at answered

theorem booked_history (settings : Settings) (moves : List Move) :
    Correlated (history settings moves) ∧ Booked (history settings moves) ∧
      Unread (history settings moves) := by
  obtain ⟨correlated, -, -, -, booked, unread⟩ := invariant_of_numbered
    (fun h => h.session.Attentive ∧ Attempted (max settings.maximumAttempts 1) h ∧ Booked h ∧ Unread h)
    settings
    ⟨attentive_start settings, attempted_start settings, booked_start settings,
      unread_start settings⟩
    (fun h move after reaction correlated numbered ⟨attentive, attempted, booked, unread⟩ possible =>
      ⟨attentive_of_act correlated.coherent attentive possible,
        attempted_record (by omega) correlated numbered attempted possible,
        booked_record booked (entered correlated.coherent attentive attempted possible),
        unread_record attentive unread possible⟩) moves
  exact ⟨correlated, booked, unread⟩

/-- Whatever senders, the receive path, the link and the clock do, in whatever order: the counts of
a channel balance. -/
theorem balanced_history (settings : Settings) (moves : List Move) :
    Balanced (history settings moves) := by
  obtain ⟨correlated, booked, unread⟩ := booked_history settings moves
  generalize history settings moves = h at correlated booked unread
  refine ⟨booked.sent, booked.timeouts, fun free => ?settled, fun free => ?cutOff, booked.retries,
    Nat.le_trans (Nat.le_add_right _ _) booked.covered, fun free => ?heard,
    (List.sublist_append_left ..).trans unread.raced,
    (List.sublist_append_left ..).trans unread.stranded⟩
  case settled =>
    have nobody : waits h.session.channel = 0 := by
      rw [waits, free]
      rfl
    rw [booked.sent, booked.timeouts, booked.balance, length_answered correlated free, nobody,
      Nat.add_zero]
  case cutOff =>
    have ended := booked.doomed
    rw [doomed, free, Option.toList_none, List.filter_nil, List.map_nil, List.append_nil] at ended
    constructor
    · have distinct := nodup_taken correlated.inOrder
      rw [correlated.oneAtATime, free, Option.toList_none, List.map_nil, List.append_nil] at distinct
      have among := ended.map (·.1)
      rw [List.map_map, show (fun end' : Nat × Outcome => end'.1) ∘ linkless = id from rfl,
        List.map_id] at among
      exact among.nodup distinct
    · exact fun number member => ended.subset (List.mem_map_of_mem member)
  case heard =>
    rw [booked.heard, length_answered correlated free]

/-- A confirm of the health check with sequence number 1. -/
def healthConfirm : Response :=
  .confirm ⟨MessageId.healthCheck.code, 0, requestFlags, 0, .of 1 0⟩ 0 []

/-- A confirm has to wait while the link has the only frame of a send in hand, and the link refuses the
frame. -/
def refusedInHand : List Move :=
  [.attach, .submit .healthCheck none, .take, .proceed, .receive healthConfirm,
    .transmitted 0 (.error .down), .receive healthConfirm, .proceed]

/-- The link is lost while one send waits for its confirm, and another one for the channel. -/
def lostForTwo : List Move :=
  [.attach, .submit .healthCheck none, .submit .healthCheck none, .take, .proceed,
    .transmitted 0 (.ok ()), .unlink, .hangUp, .resume, .proceed, .take]

/-- Without any timeout a confirm may be neither stale nor resolve a send. And of the sends that the loss
of the link ends while they wait, only those that wait for a confirm have a frame among the sent ones. -/
theorem not_balanced_refusedInHand :
    (¬ ∀ (settings : Settings) (moves : List Move),
      (history settings moves).session.channel.exchange = none →
        (history settings moves).expired = [] →
          (history settings moves).session.channel.stats.stale +
            ((history settings moves).ended.filter (fromChip ·.2)).length =
              (history settings moves).confirms) ∧
      (history {} lostForTwo).session.channel.exchange.isNone = true ∧
      (history {} lostForTwo).ended = [(0, .error .noTransport), (1, .error .noTransport)] ∧
      (history {} lostForTwo).session.channel.stats = ⟨1, 0, 0, 0⟩ := by
  refine ⟨fun holds => ?_, rfl, rfl, rfl⟩
  have counted := holds {} refusedInHand rfl rfl
  revert counted
  decide +kernel

/-- The second confirm races with the timeout; the third answers the second attempt. -/
example :
    let h := history {} [.attach, .submit .healthCheck none, .receive healthConfirm, .take, .proceed,
      .transmitted 0 (.ok ()), .expire 1000, .receive healthConfirm, .proceed,
      .transmitted 1000 (.ok ()), .receive healthConfirm, .resume, .proceed]
    h.session.channel.stats = ⟨2, 1, 1, 1⟩ ∧ (h.confirms, h.raced, h.answered.length) = (3, [0], 1) :=
  ⟨rfl, rfl⟩

end TargetWakeTime.Host.Channel
