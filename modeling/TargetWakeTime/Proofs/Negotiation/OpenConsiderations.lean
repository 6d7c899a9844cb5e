import TargetWakeTime.Proofs.Negotiation.Isolation

/-!
Contract: no flow stays under consideration for good.

Owns:
- attended states, in which an answer waits for every flow under consideration and every answer
  that waits ends a negotiation, and their preservation by every operation;
- that the answers which wait for a station run out as they are taken out, and take all of its flows
  out of consideration.

An answer may wait for a flow that has no use for it: only the other direction is kept.
-/

namespace TargetWakeTime.Negotiation

/-- If the flow is under consideration, an answer waits for it. -/
def Heard (key : AgreementKey) (n : Negotiation) : Prop :=
  ∀ slot, n.stations.slot? key = some slot → slot.state.isConsidering = true →
    n.answers.eventsOf key ≠ []

structure Attended (n : Negotiation) : Prop where
  orderly : n.Orderly
  heard : ∀ key, Heard key n
  final : ∀ answer ∈ n.answers.toList, verdict? answer ≠ none

variable {n m : Negotiation} {peer : MacAddress} {flow : UInt8} {key : AgreementKey} {event : Event}

theorem ne_noAgreement_of_isConsidering {state : AgreementState}
    (considering : state.isConsidering = true) : state ≠ .noAgreement := by
  rintro rfl
  cases considering

/-- Only busy flows are under consideration. -/
theorem heard_of_busy? (settled : ∀ slot, n.stations.busy? key = some slot →
    slot.state.isConsidering = false) : Heard key n := by
  intro slot found considering
  have busy : n.stations.busy? key = some slot :=
    StationTable.busy?_eq_some_iff.mpr ⟨found, ne_noAgreement_of_isConsidering considering⟩
  rw [settled slot busy] at considering
  cases considering

theorem Heard.of_undisturbed (heard : Heard key n) (undisturbed : Undisturbed key n m) :
    Heard key m := by
  intro slot found considering
  have busy : n.stations.busy? key = some slot := by
    rw [← undisturbed.slot]
    exact StationTable.busy?_eq_some_iff.mpr ⟨found, ne_noAgreement_of_isConsidering considering⟩
  rw [undisturbed.answers (by simp [busy])]
  exact heard slot (StationTable.busy?_eq_some_iff.mp busy).1 considering

/-- A change that concerns a single flow only has to see to that flow. -/
theorem Attended.of_concerns (attended : Attended n) (concerns : Concerns key n m)
    (heard : Heard key m) : Attended m where
  orderly := concerns.orderly
  heard other := by
    by_cases own : other = key
    · rw [own]
      exact heard
    · exact (attended.heard other).of_undisturbed (concerns.others other own)
  final answer member := by
    rcases concerns.answers answer member with earlier | ends
    · exact attended.final answer earlier
    · exact ends

theorem Attended.of_neutral (attended : Attended n) (neutral : Neutral n m) : Attended m where
  orderly := neutral.orderly
  heard key := (attended.heard key).of_undisturbed (neutral.flows key)
  final answer member := attended.final answer (neutral.answers answer member)

/-! ### Answers -/

theorem heard_conclude {conclusion : Conclusion} (orderly : n.Orderly) :
    Heard event.key (n.conclude event conclusion) := by
  apply heard_of_busy?
  intro slot busy
  rw [(busy?_conclude orderly busy).2]
  rfl

/-- An answer that is let out waits, or ends its negotiation at once. -/
theorem heard_respond (answer : Event) {conclusion : Option Conclusion} (orderly : n.Orderly)
    (settled : conclusion = none → Heard answer.key n) :
    Heard answer.key (n.respond answer conclusion) := by
  have response := responded answer conclusion n
  generalize n.respond answer conclusion = m at response ⊢
  cases response with
  | unknown absent =>
      intro slot found
      obtain ⟨station, known, -⟩ := Option.bind_eq_some_iff.mp found
      rw [Event.key, absent] at known
      cases known
  | waiting =>
      intro slot _ _
      simp [EventQueue.eventsOf, List.filter_append]
  | left pending =>
      intro slot found considering
      rw [StationTable.slot?_withoutNote] at found
      exact settled pending slot found considering
  | @concluded _ tasks =>
      have left : Neutral n { n with stations := n.stations.withoutNote answer.source, tasks } :=
        neutral_modify orderly (fun _ => rfl) (fun _ => rfl)
      exact heard_conclude left.orderly

theorem heard_reject {agreement : Agreement} (orderly : n.Orderly) :
    Heard ⟨peer, flow⟩ (n.reject peer flow agreement) := by
  refine heard_respond ⟨peer, flow, .setup .reject (agreement.withCommand .reject)⟩ orderly ?_
  intro pending
  have stands : n.stateOf peer flow = some .agreement := by simpa using pending
  apply heard_of_busy?
  intro slot busy
  rw [stateOf_of_slot? (StationTable.busy?_eq_some_iff.mp busy).1] at stands
  rw [Option.some.inj stands]
  rfl

theorem heard_accept {command : SetupCommand} {agreement : Agreement} (orderly : n.Orderly)
    (busy : n.stations.busy? ⟨peer, flow⟩ ≠ none) :
    Heard ⟨peer, flow⟩ (n.accept peer flow command agreement) := by
  rw [accept_eq]
  dsimp only
  split
  case h_1 refused => exact heard_reject (concerns_refused orderly refused).orderly
  case h_2 scheduled schedule granted =>
    have placed := concerns_granted orderly busy granted
    have held := concerns_setAgreement peer flow
      (some (scheduled.withCommand .accept).updateParameters) placed.orderly
    exact heard_respond ⟨peer, flow, .setup .accept
      (scheduled.withCommand .accept).updateParameters⟩ held.orderly (by simp)

/-! ### Events -/

theorem Attended.heard_consider {command : SetupCommand} {agreement : Agreement}
    (attended : Attended n) : Heard ⟨peer, flow⟩ (n.consider peer flow command agreement) := by
  unfold consider
  split
  · exact attended.heard _
  case h_2 slot found =>
    have opened (state : AgreementState) (notFree : state ≠ .noAgreement) :
        (n.setState peer flow state).Orderly :=
      (concerns_setState attended.orderly notFree).orderly
    cases command
    case request | suggest =>
      exact heard_accept (opened _ (by simp)) (busy?_setState found (by simp))
    case demand | grouping => exact heard_reject (opened _ (by simp))
    all_goals exact attended.heard _

theorem Attended.heard_answerRequest {command : SetupCommand} {agreement : Agreement}
    {state : AgreementState} (attended : Attended n) :
    Heard ⟨peer, flow⟩ (n.answerRequest peer flow command agreement state) := by
  unfold answerRequest
  split
  · exact attended.heard_consider
  case h_6 =>
    split
    · exact attended.heard _
    · exact heard_reject attended.orderly
  all_goals exact attended.heard _

theorem Attended.heard_handleTeardown (attended : Attended n) :
    Heard event.key (n.handleTeardown event) := by
  unfold handleTeardown
  split
  · have own := neutral_of_responderPart attended.orderly (responderPart_handleOwnTeardown event n)
    exact (attended.of_neutral own).heard event.key
  · split
    · split
      · exact attended.heard _
      · exact attended.heard _
      · exact heard_conclude attended.orderly
    · exact attended.heard _

theorem attended_handleEvent (attended : Attended n) (event : Event) :
    Attended (n.handleEvent event).1 := by
  refine attended.of_concerns (concerns_handleEvent attended.orderly event) ?_
  unfold handleEvent
  split
  · exact attended.heard_handleTeardown
  case h_2 command agreement _ =>
    split
    · split
      · split
        · exact attended.heard _
        case h_2 stations ensured =>
          have extended := attended.of_neutral (neutral_ensure attended.orderly ensured)
          exact extended.heard_answerRequest
      · exact attended.heard _
    · split
      · have own := neutral_of_responderPart attended.orderly
          (responderPart_handleAnswer event command n)
        exact (attended.of_neutral own).heard event.key
      · exact attended.heard _

theorem attended_handleAll {events : List Event} (attended : Attended n) :
    Attended (handleAll events n).1 :=
  holds_handleAll Attended (fun event _ _ attended => attended_handleEvent attended event) attended

theorem attended_handleEvents (attended : Attended n) (source : Option MacAddress) :
    Attended (n.handleEvents source) := by
  obtain ⟨events, tasks, handled⟩ := handleEvents_eq source n
  have opened : Attended (n.opened source) := attended.of_neutral
    (neutral_of_busy? attended.orderly attended.orderly.distinct (fun _ => rfl) rfl rfl)
  have all : Attended (handleAll (n.due source) (n.opened source)).1 := attended_handleAll opened
  rw [handled]
  exact all.of_neutral
    (neutral_of_busy? all.orderly all.orderly.distinct (fun _ => rfl) rfl rfl)

/-! ### Taking out answers -/

/-- An answer without use for its flow just leaves. -/
theorem takeAnswer_snd_of_not_considering {answer : Event}
    (first : n.answers.peek? (some peer) none = some answer)
    (settled : ∀ state, n.stateOf answer.source answer.flow = some state →
      state.isConsidering = false) : (n.takeAnswer peer).2 = n.withoutAnswer peer := by
  have taken := answerTaken peer n
  generalize n.takeAnswer peer = result at taken ⊢
  cases taken with
  | nothing empty => cases empty.symm.trans first
  | established other _ stands considering =>
      cases other.symm.trans first
      cases considering.symm.trans (settled _ stands)
  | cleared other _ stands considering =>
      cases other.symm.trans first
      cases considering.symm.trans (settled _ stands)
  | kept => rfl
  | refused => rfl

theorem attended_takeAnswer (attended : Attended n) (peer : MacAddress) :
    Attended (n.takeAnswer peer).2 := by
  cases first : n.answers.peek? (some peer) none with
  | none =>
      have unchanged : (n.takeAnswer peer).2 = n := by simp [takeAnswer, EventQueue.pop?, first]
      rwa [unchanged]
  | some answer =>
      have waits := EventQueue.mem_of_peek? first
      obtain ⟨conclusion, ends⟩ := Option.ne_none_iff_exists'.mp (attended.final answer waits)
      have left := concerns_withoutAnswer attended.orderly first
      by_cases considered : ∃ state, n.stateOf answer.source answer.flow = some state ∧
          state.isConsidering = true
      case pos =>
        obtain ⟨state, stands, considering⟩ := considered
        rw [takeAnswer_snd_of_verdict first ends stands considering]
        exact attended.of_concerns (concerns_answered attended.orderly first conclusion)
          (heard_conclude left.orderly)
      case neg =>
        have settled (state : AgreementState)
            (stands : n.stateOf answer.source answer.flow = some state) :
            state.isConsidering = false :=
          Bool.eq_false_iff.mpr fun considering => considered ⟨state, stands, considering⟩
        rw [takeAnswer_snd_of_not_considering first settled]
        refine attended.of_concerns left fun slot found considering => ?_
        exact absurd ⟨slot.state, stateOf_of_slot? found, considering⟩ considered

/-- The end of a negotiation takes answers along, if any. -/
theorem answers_conclude_sublist (event : Event) (conclusion : Conclusion) (n : Negotiation) :
    (n.conclude event conclusion).answers.toList.Sublist n.answers.toList := by
  unfold conclude
  split
  · exact List.Sublist.refl _
  · cases conclusion
    case established => cases event.agreement? <;> exact List.Sublist.refl _
    case cleared =>
      simp only [removeAgreement, collectIdle]
      split
      · split
        · exact List.filter_sublist
        · exact List.Sublist.refl _
      · exact List.Sublist.refl _

/-- Each answer that is taken out is one less, as long as there are any. -/
theorem count_takeAnswer (peer : MacAddress) (n : Negotiation) :
    (n.takeAnswer peer).2.answers.count (some peer) none ≤
      n.answers.count (some peer) none - 1 := by
  have fewer {m : Negotiation} {answer : Event}
      (first : n.answers.peek? (some peer) none = some answer)
      (sublist : m.answers.toList.Sublist (n.withoutAnswer peer).answers.toList) :
      m.answers.count (some peer) none ≤ n.answers.count (some peer) none - 1 := by
    have passes : answer.passes (some peer) none = true := List.find?_some first
    obtain ⟨before, after, split, rest⟩ := EventQueue.exists_split_of_peek? first
    have left : (before ++ after).countP (·.passes (some peer) none) + 1 =
        n.answers.count (some peer) none := by
      simp only [EventQueue.count, split, List.countP_append, List.countP_cons, passes, if_true]
      omega
    have noMore : m.answers.count (some peer) none ≤
        (before ++ after).countP (·.passes (some peer) none) := by
      rw [← rest]
      exact sublist.countP_le
    omega
  have taken := answerTaken peer n
  generalize n.takeAnswer peer = result at taken ⊢
  cases taken with
  | nothing empty =>
      have none : n.answers.count (some peer) none = 0 := by
        rw [EventQueue.count, List.countP_eq_zero]
        exact List.find?_eq_none.mp empty
      exact Nat.le_of_eq (none.trans (by rw [none]))
  | established first => exact fewer first (answers_conclude_sublist ..)
  | cleared first => exact fewer first (answers_conclude_sublist ..)
  | kept first => exact fewer first (List.Sublist.refl _)
  | refused first => exact fewer first (List.Sublist.refl _)

/-- As many takings as there are answers for a station leave none. -/
theorem count_run_takeAnswer {count : Nat} (enough : n.answers.count (some peer) none ≤ count) :
    (run n (List.replicate count (.takeAnswer peer))).answers.count (some peer) none = 0 := by
  induction count generalizing n with
  | zero => exact Nat.le_zero.mp enough
  | succ count inductionHypothesis =>
      have step := count_takeAnswer peer n
      exact inductionHypothesis (n := (n.takeAnswer peer).2) (by omega)

/-! ### Operations -/

theorem attended_of_nobody (orderly : n.Orderly) (nobody : ∀ key, n.stations.slot? key = none)
    (silent : n.answers.toList = []) : Attended n where
  orderly := orderly
  heard key slot found := by
    rw [nobody key] at found
    cases found
  final answer member := by
    rw [silent] at member
    cases member

theorem attended_new (settings : Settings) : Attended (new settings) :=
  attended_of_nobody (orderly_new settings) (fun _ => rfl) rfl

theorem attended_dropStation (attended : Attended n) (peer : MacAddress) :
    Attended (n.dropStation peer) where
  orderly := orderly_dropStation attended.orderly
  heard key := by
    by_cases own : key.address = peer
    · intro slot found
      rw [dropStation, StationTable.slot?_remove attended.orderly.distinct, if_pos own] at found
      cases found
    · exact (attended.heard key).of_undisturbed
        (undisturbed_dropStation attended.orderly fun same => absurd same own)
  final answer member := attended.final answer (List.mem_filter.mp member).1

/-- An answer waits for every flow under consideration, whatever is done. -/
theorem attended_apply (attended : Attended n) (operation : Operation) :
    Attended (operation.apply n) := by
  have change := change_apply attended.orderly operation
  generalize operation.apply n = m at change ⊢
  cases change with
  | neutral neutral => exact attended.of_neutral neutral
  | handled source => exact attended_handleEvents attended source
  | taken => exact attended_takeAnswer attended _
  | forgotten peer same =>
      have dropped := attended_dropStation attended peer
      exact dropped.of_neutral (neutral_of_responderPart dropped.orderly same)
  | cleared =>
      exact attended_of_nobody (orderly_of_empty List.Pairwise.nil rfl) (fun _ => rfl) rfl

/-- The answer that waits for a flow under consideration. -/
theorem Attended.exists_answer {state : AgreementState} (attended : Attended n)
    (stands : n.stateOf peer flow = some state) (considering : state.isConsidering = true) :
    ∃ answer ∈ n.answers.toList, answer.key = ⟨peer, flow⟩ ∧ verdict? answer ≠ none := by
  obtain ⟨slot, found, rfl⟩ :=
    exists_slot_of_stateOf stands (ne_noAgreement_of_isConsidering considering)
  obtain ⟨answer, member⟩ :=
    List.exists_mem_of_ne_nil _ (attended.heard ⟨peer, flow⟩ slot found considering)
  obtain ⟨waits, own⟩ := List.mem_filter.mp member
  exact ⟨answer, waits, by simpa using own, attended.final answer waits⟩

/-- Without answers for a station none of its flows is under consideration. -/
theorem Attended.isConsidering_eq_false {state : AgreementState} (attended : Attended n)
    (none : n.answers.count (some peer) none = 0) (stands : n.stateOf peer flow = some state) :
    state.isConsidering = false := by
  rw [Bool.eq_false_iff]
  intro considering
  obtain ⟨answer, waits, own, -⟩ := attended.exists_answer stands considering
  have skipped := List.countP_eq_zero.mp none answer waits
  exact skipped (Event.passes_some_none.mpr (congrArg AgreementKey.address own))

/-- In every state that can be reached an acceptance or a rejection waits for each flow under
consideration, and once as many answers are taken out as wait for its station, or more, the flow is
not under consideration any more. -/
theorem consideration_ends (settings : Settings) (operations : List Operation) (n : Negotiation)
    (isReached : n ∈ reached (new settings) operations) (peer : MacAddress) (flow : UInt8)
    (state : AgreementState) (stands : n.stateOf peer flow = some state)
    (considering : state.isConsidering = true) :
    (∃ answer ∈ n.answers.toList, answer.source = peer ∧ answer.flow = flow ∧
      (answer.command? = some .accept ∨ answer.command? = some .reject)) ∧
    ∀ count, n.answers.count (some peer) none ≤ count → ∀ later,
      (run n (List.replicate count (.takeAnswer peer))).stateOf peer flow = some later →
        later.isConsidering = false := by
  have attended : Attended n :=
    invariant_of_apply Attended (fun _ operation holds => attended_apply holds operation)
      (attended_new settings) n isReached
  constructor
  · obtain ⟨answer, waits, own, ends⟩ := attended.exists_answer stands considering
    rw [Event.key, AgreementKey.mk.injEq] at own
    refine ⟨answer, waits, own.1, own.2, ?_⟩
    unfold verdict? at ends
    split at ends
    case h_1 agreement accepts => exact Or.inl (by rw [Event.command?, accepts])
    case h_2 agreement rejects => exact Or.inr (by rw [Event.command?, rejects])
    case h_3 => exact absurd rfl ends
  · intro count enough later stands
    have attendedLater : Attended (run n (List.replicate count (.takeAnswer peer))) :=
      invariant_of_apply Attended (fun _ operation holds => attended_apply holds operation)
        attended _ (run_mem_reached n _)
    exact attendedLater.isConsidering_eq_false (count_run_takeAnswer enough) stands

/-- Two flows of a station are taken up, and no answer is taken out. -/
def takenUp : List Operation :=
  let peer : MacAddress := ⟨2, 0, 0, 0, 0, 1⟩
  [.receiveElement peer (requestElement 0 1 1024), .receiveElement peer (requestElement 1 1 1024),
    .handleEvents none]

/-- An answer waits for the second flow, and the second answer that is taken out settles it. -/
theorem consideration_ends_takenUp :
    let peer : MacAddress := ⟨2, 0, 0, 0, 0, 1⟩
    let n := run (new .accessPoint) takenUp
    (∃ answer ∈ n.answers.toList, answer.source = peer ∧ answer.flow = 1 ∧
      (answer.command? = some .accept ∨ answer.command? = some .reject)) ∧
    ∀ later, (run n (List.replicate 2 (.takeAnswer peer))).stateOf peer 1 = some later →
      later.isConsidering = false := by
  intro peer n
  have stands : n.stateOf peer 1 = some .considerRequest := by decide +kernel
  have waiting : n.answers.count (some peer) none = 2 := by decide +kernel
  have ended := consideration_ends .accessPoint takenUp n (run_mem_reached _ _) peer 1
    .considerRequest stands rfl
  exact ⟨ended.1, ended.2 2 (Nat.le_of_eq waiting)⟩

end TargetWakeTime.Negotiation
