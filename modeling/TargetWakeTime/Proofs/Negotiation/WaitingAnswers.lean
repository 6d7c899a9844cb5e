import TargetWakeTime.Proofs.Negotiation.Surroundings
import TargetWakeTime.Proofs.StationTable

/-!
Contract: the answers that wait for an association response, and the negotiations they end.

Owns:
- the invariant that every waiting answer is owed to an open negotiation, with at most one for each
  flow, and its preservation by everything that can be done to a negotiation state;
- the condition under which it holds along a run: a teardown may not leave an answer behind.

While a batch of events is handled, the flows torn down in it are set apart: what waits for them is
not owed to anybody any more.
-/

namespace TargetWakeTime

/-- The reasons to let an answer wait. -/
inductive Owed (t : StationTable) (answer : Event) : Prop where
  /-- The flow is under consideration and holds what the acceptance carries. -/
  | acceptance {slot : Slot} {agreement : Agreement}
      (found : t.slot? answer.key = some slot) (considering : slot.state.isConsidering = true)
      (accepts : answer.body = .setup .accept agreement)
      (holds : slot.agreement = some agreement)
  /-- The flow is under consideration or in agreement. -/
  | rejection {slot : Slot} {agreement : Agreement}
      (found : t.slot? answer.key = some slot) (busy : slot.state ≠ .noAgreement)
      (rejects : answer.body = .setup .reject agreement)

/-- The answers that wait, after the flows in `torn` were torn down. -/
structure Waiting (torn : List AgreementKey) (t : StationTable) (answers : EventQueue) :
    Prop where
  distinctStations : t.Distinct
  distinct : answers.Distinct
  owed : ∀ answer ∈ answers.toList, answer.key ∉ torn → Owed t answer
  cleared : ∀ key ∈ torn, ∀ slot, t.slot? key = some slot → slot.state = .noAgreement

variable {t : StationTable}

/-- Only the slot of its own flow matters to an answer. -/
theorem Owed.of_slot? {other : StationTable} {answer : Event} (owed : Owed t answer)
    (same : other.slot? answer.key = t.slot? answer.key) : Owed other answer := by
  cases owed with
  | acceptance found considering accepts holds =>
      exact .acceptance (same.trans found) considering accepts holds
  | rejection found busy rejects => exact .rejection (same.trans found) busy rejects

theorem Owed.exists_slot {answer : Event} (owed : Owed t answer) :
    ∃ slot, t.slot? answer.key = some slot ∧ slot.state ≠ .noAgreement := by
  cases owed with
  | acceptance found considering =>
      refine ⟨_, found, fun free => ?_⟩
      rw [free] at considering
      cases considering
  | rejection found busy => exact ⟨_, found, busy⟩

namespace Waiting

variable {torn : List AgreementKey} {answers : EventQueue} {address : MacAddress} {flow : UInt8}

theorem empty (capacity : Nat) : Waiting [] { capacity } {} where
  distinctStations := List.Pairwise.nil
  distinct := EventQueue.distinct_empty
  owed := by simp
  cleared := by simp

theorem clear (t : StationTable) : Waiting [] t.clear {} := empty t.capacity

/-- Nothing waits for a flow without agreement that was not torn down. -/
theorem absent {key : AgreementKey} (waiting : Waiting torn t answers) (untorn : key ∉ torn)
    (free : ∀ slot, t.slot? key = some slot → slot.state = .noAgreement) :
    ∀ answer ∈ answers.toList, answer.key ≠ key := by
  rintro answer member rfl
  obtain ⟨slot, found, busy⟩ := (waiting.owed answer member untorn).exists_slot
  exact busy (free slot found)

/-! ### Changes of the table -/

/-- The slot of a flow that nothing waits for may change in any way. -/
theorem modifySlot {f : Slot → Slot} (waiting : Waiting torn t answers)
    (untorn : ⟨address, flow⟩ ∉ torn)
    (absent : ∀ answer ∈ answers.toList, answer.key ≠ ⟨address, flow⟩) :
    Waiting torn (t.modifySlots address (·.modify flow f)) answers where
  distinctStations := StationTable.distinct_modifySlots waiting.distinctStations
  distinct := waiting.distinct
  owed answer member other := by
    refine (waiting.owed answer member other).of_slot? ?_
    rw [StationTable.slot?_modifySlots, if_neg (absent answer member)]
  cleared key member slot found := by
    have apart : key ≠ ⟨address, flow⟩ := by
      rintro rfl
      exact untorn member
    rw [StationTable.slot?_modifySlots, if_neg apart] at found
    exact waiting.cleared key member slot found

/-- A flow is torn down, whatever waits for it. -/
theorem tear (waiting : Waiting torn t answers) :
    Waiting (⟨address, flow⟩ :: torn)
      ((t.modifySlots address (·.setState flow .noAgreement)).modifySlots address
        (·.setAgreement flow none)) answers where
  distinctStations := StationTable.distinct_modifySlots
    (StationTable.distinct_modifySlots waiting.distinctStations)
  distinct := waiting.distinct
  owed answer member other := by
    rw [List.mem_cons, not_or] at other
    refine (waiting.owed answer member other.2).of_slot? ?_
    rw [StationTable.slot?_setAgreement, if_neg other.1, StationTable.slot?_setState,
      if_neg other.1]
  cleared key member slot found := by
    rw [StationTable.slot?_setAgreement, StationTable.slot?_setState] at found
    by_cases same : key = ⟨address, flow⟩
    · obtain ⟨-, -, rfl⟩ := by simpa [same] using found
      rfl
    · rw [if_neg same, if_neg same] at found
      exact waiting.cleared key ((List.mem_cons.mp member).resolve_left same) slot found

/-- Tearing down a flow without agreement changes nothing. -/
theorem tearFree {key : AgreementKey} (waiting : Waiting torn t answers)
    (free : ∀ slot, t.slot? key = some slot → slot.state = .noAgreement) :
    Waiting (key :: torn) t answers where
  distinctStations := waiting.distinctStations
  distinct := waiting.distinct
  owed answer member other := by
    rw [List.mem_cons, not_or] at other
    exact waiting.owed answer member other.2
  cleared other member := by
    rcases List.mem_cons.mp member with rfl | earlier
    · exact free
    · exact waiting.cleared other earlier

/-- What stands beside the slots of a station does not matter. -/
theorem modify {f : Station → Station} (waiting : Waiting torn t answers)
    (keepsAddress : ∀ station, (f station).address = station.address)
    (keepsSlots : ∀ station, (f station).slots = station.slots) :
    Waiting torn (t.modify address f) answers where
  distinctStations := StationTable.distinct_modify keepsAddress waiting.distinctStations
  distinct := waiting.distinct
  owed answer member other := by
    refine (waiting.owed answer member other).of_slot? ?_
    rw [StationTable.slot?_modify_of_slots keepsAddress keepsSlots]
  cleared key member slot found := by
    rw [StationTable.slot?_modify_of_slots keepsAddress keepsSlots] at found
    exact waiting.cleared key member slot found

theorem ensure {extended : StationTable} (waiting : Waiting torn t answers)
    (ensured : t.ensure address = .ok extended) : Waiting torn extended answers where
  distinctStations := StationTable.distinct_of_ensure ensured waiting.distinctStations
  distinct := waiting.distinct
  owed answer member other := by
    have owed := waiting.owed answer member other
    obtain ⟨slot, found, -⟩ := owed.exists_slot
    exact owed.of_slot? ((StationTable.slot?_of_ensure_of_some ensured found).trans found.symm)
  cleared key member slot found := by
    rcases StationTable.slot?_of_ensure ensured found with old | ⟨-, rfl⟩
    · exact waiting.cleared key member slot old
    · rfl

/-- A station is forgotten, with all that waits for it. -/
theorem drop (waiting : Waiting torn t answers) (peer : MacAddress) :
    Waiting torn (t.remove peer) (answers.purge (some peer) none) where
  distinctStations := StationTable.distinct_remove waiting.distinctStations
  distinct := EventQueue.distinct_purge waiting.distinct
  owed answer member other := by
    obtain ⟨waits, kept⟩ := List.mem_filter.mp member
    have elsewhere : answer.key.address ≠ peer := by
      intro same
      rw [Event.passes_some_none.mpr same] at kept
      cases kept
    refine (waiting.owed answer waits other).of_slot? ?_
    rw [StationTable.slot?_remove waiting.distinctStations, if_neg elsewhere]
  cleared key member slot found := by
    rw [StationTable.slot?_remove waiting.distinctStations] at found
    split at found
    · cases found
    · exact waiting.cleared key member slot found

/-! ### Changes of the queue -/

theorem push {answer : Event} (waiting : Waiting torn t answers)
    (absent : ∀ other ∈ answers.toList, other.key ≠ answer.key) (owed : Owed t answer) :
    Waiting torn t (answers.push answer) where
  distinctStations := waiting.distinctStations
  distinct := EventQueue.distinct_push waiting.distinct absent
  owed other member untorn := by
    rw [EventQueue.toList_push, List.mem_append, List.mem_singleton] at member
    rcases member with earlier | rfl
    · exact waiting.owed other earlier untorn
    · exact owed
  cleared := waiting.cleared

theorem takeOut {p : Event → Bool} (waiting : Waiting torn t answers) :
    Waiting torn t ⟨answers.toList.eraseP p⟩ where
  distinctStations := waiting.distinctStations
  distinct := EventQueue.distinct_eraseP waiting.distinct
  owed answer member := waiting.owed answer (List.mem_of_mem_eraseP member)
  cleared := waiting.cleared

/-- Once nothing waits for the flows that were torn down, they are flows like all others. -/
theorem settle (waiting : Waiting torn t answers)
    (taken : ∀ answer ∈ answers.toList, answer.key ∉ torn) : Waiting [] t answers where
  distinctStations := waiting.distinctStations
  distinct := waiting.distinct
  owed answer member _ := waiting.owed answer member (taken answer member)
  cleared := by simp

/-- Only which flows were torn down matters, not in which order. -/
theorem of_mem_iff {other : List AgreementKey} (waiting : Waiting torn t answers)
    (same : ∀ key, key ∈ other ↔ key ∈ torn) : Waiting other t answers where
  distinctStations := waiting.distinctStations
  distinct := waiting.distinct
  owed answer member untorn :=
    waiting.owed answer member fun isTorn => untorn ((same _).mpr isTorn)
  cleared key member := waiting.cleared key ((same key).mp member)

end Waiting

namespace Negotiation

/-- All answers that wait are owed, but for those of the flows that were just torn down. -/
def AnswersOwed (torn : List AgreementKey) (n : Negotiation) : Prop :=
  Waiting torn n.stations n.answers

variable {n : Negotiation} {torn : List AgreementKey} {peer : MacAddress} {flow : UInt8}
  {event : Event}

/-! ### Ends of a negotiation -/

theorem answersOwed_collectIdle (owes : n.AnswersOwed torn) :
    (n.collectIdle peer).AnswersOwed torn := by
  unfold collectIdle
  split
  · split
    · exact Waiting.drop owes peer
    · exact owes
  · exact owes

/-- A negotiation may end in any way once its answer has left. -/
theorem answersOwed_conclude {conclusion : Conclusion} (owes : n.AnswersOwed torn)
    (untorn : event.key ∉ torn) (absent : ∀ answer ∈ n.answers.toList, answer.key ≠ event.key) :
    (n.conclude event conclusion).AnswersOwed torn := by
  unfold conclude
  split
  · exact owes
  · cases conclusion
    case established =>
      have inAgreement : (n.setState event.source event.flow .agreement).AnswersOwed torn :=
        Waiting.modifySlot owes untorn absent
      cases event.agreement? with
      | none => exact inAgreement
      | some agreement => exact Waiting.modifySlot inAgreement untorn absent
    case cleared =>
      have free : (n.setState event.source event.flow .noAgreement).AnswersOwed torn :=
        Waiting.modifySlot owes untorn absent
      exact answersOwed_collectIdle (Waiting.modifySlot free untorn absent)

/-! ### Answers -/

theorem answersOwed_respond {answer : Event} {conclusion : Option Conclusion}
    (owes : n.AnswersOwed torn) (untorn : answer.key ∉ torn)
    (absent : ∀ other ∈ n.answers.toList, other.key ≠ answer.key)
    (owed : Owed n.stations answer) : (n.respond answer conclusion).AnswersOwed torn := by
  have noted : Waiting torn (n.stations.withoutNote answer.source) n.answers :=
    Waiting.modify owes (fun _ => rfl) (fun _ => rfl)
  have response := responded answer conclusion n
  generalize n.respond answer conclusion = m at response ⊢
  cases response with
  | unknown => exact owes
  | waiting => exact Waiting.push owes absent owed
  | left => exact noted
  | concluded => exact answersOwed_conclude (by exact noted) untorn absent

theorem answersOwed_reject {slot : Slot} {agreement : Agreement} (owes : n.AnswersOwed torn)
    (untorn : ⟨peer, flow⟩ ∉ torn)
    (absent : ∀ answer ∈ n.answers.toList, answer.key ≠ ⟨peer, flow⟩)
    (found : n.stations.slot? ⟨peer, flow⟩ = some slot) (busy : slot.state ≠ .noAgreement) :
    (n.reject peer flow agreement).AnswersOwed torn :=
  answersOwed_respond owes untorn absent (.rejection found busy rfl)

theorem answersOwed_accept {slot : Slot} {command : SetupCommand} {agreement : Agreement}
    (owes : n.AnswersOwed torn) (untorn : ⟨peer, flow⟩ ∉ torn)
    (absent : ∀ answer ∈ n.answers.toList, answer.key ≠ ⟨peer, flow⟩)
    (found : n.stations.slot? ⟨peer, flow⟩ = some slot)
    (considering : slot.state.isConsidering = true) :
    (n.accept peer flow command agreement).AnswersOwed torn := by
  have busy : slot.state ≠ .noAgreement := by
    intro free
    rw [free] at considering
    cases considering
  rw [accept_eq]
  dsimp only
  split
  case h_1 => exact answersOwed_reject (by exact owes) untorn absent found busy
  case h_2 scheduled schedule granted =>
    have holds : (n.stations.modifySlots peer (·.setAgreement flow
        (some (scheduled.withCommand .accept).updateParameters))).slot? ⟨peer, flow⟩ =
          some ⟨slot.state, some (scheduled.withCommand .accept).updateParameters⟩ := by
      rw [StationTable.slot?_setAgreement, if_pos rfl, found]
      rfl
    exact answersOwed_respond (Waiting.modifySlot owes untorn absent) untorn absent
      (.acceptance holds considering rfl rfl)

/-! ### Events -/

theorem answersOwed_consider {command : SetupCommand} {agreement : Agreement}
    (owes : n.AnswersOwed torn) (untorn : ⟨peer, flow⟩ ∉ torn)
    (free : ∀ slot, n.stations.slot? ⟨peer, flow⟩ = some slot → slot.state = .noAgreement) :
    (n.consider peer flow command agreement).AnswersOwed torn := by
  have absent := owes.absent untorn free
  unfold consider
  split
  · exact owes
  case h_2 slot found =>
    have opened : ∀ state : AgreementState,
        (n.setState peer flow state).AnswersOwed torn ∧
          (n.setState peer flow state).stations.slot? ⟨peer, flow⟩ =
            some { slot with state } := by
      intro state
      refine ⟨Waiting.modifySlot owes untorn absent, ?_⟩
      rw [setState, StationTable.slot?_setState, if_pos rfl, found]
      rfl
    cases command
    case request => exact answersOwed_accept (opened _).1 untorn absent (opened _).2 rfl
    case suggest => exact answersOwed_accept (opened _).1 untorn absent (opened _).2 rfl
    case demand | grouping =>
      exact answersOwed_reject (opened _).1 untorn absent (opened _).2 (by simp)
    all_goals exact owes

theorem answersOwed_answerRequest {command : SetupCommand} {agreement : Agreement}
    {state : AgreementState} (owes : n.AnswersOwed torn) (untorn : ⟨peer, flow⟩ ∉ torn)
    (stands : (n.stateOf peer flow).getD .noAgreement = state) :
    (n.answerRequest peer flow command agreement state).AnswersOwed torn := by
  unfold answerRequest
  split
  · refine answersOwed_consider owes untorn fun slot found => ?_
    simpa [stateOf_of_slot? found] using stands
  case h_6 =>
    split
    · exact owes
    case isFalse unanswered =>
      have absent : ∀ answer ∈ n.answers.toList, answer.key ≠ ⟨peer, flow⟩ := by
        intro answer member same
        exact unanswered (EventQueue.contains_iff.mpr ⟨answer, member, same⟩)
      have inAgreement : n.stateOf peer flow = some .agreement := by
        cases known : n.stateOf peer flow with
        | none => simp [known] at stands
        | some other => simpa [known] using stands
      obtain ⟨slot, found, state⟩ := exists_slot_of_stateOf inAgreement (by simp)
      exact answersOwed_reject owes untorn absent found (by simp [state])
  all_goals exact owes

theorem answersOwed_of_responderPart {m : Negotiation} (owes : n.AnswersOwed torn)
    (same : m.responderPart = n.responderPart) : m.AnswersOwed torn := by
  have sameStations : m.stations = n.stations := congrArg ResponderPart.stations same
  have sameAnswers : m.answers = n.answers := congrArg ResponderPart.answers same
  rw [AnswersOwed, sameStations, sameAnswers]
  exact owes

/-- Whether an event tears down a flow of a station, if the flow has anything to tear down. -/
def tearsDown (event : Event) (n : Negotiation) : Bool :=
  event.body == .teardown && n.responder && !(n.requester && n.isBssid event.source)

theorem tearsDown_of_surroundings {m : Negotiation} (same : m.surroundings = n.surroundings)
    (event : Event) : m.tearsDown event = n.tearsDown event := by
  have sameRequester : m.requester = n.requester := congrArg Surroundings.requester same
  have sameResponder : m.responder = n.responder := congrArg Surroundings.responder same
  have sameLink : m.link = n.link := congrArg Surroundings.link same
  simp only [tearsDown, isBssid, sameRequester, sameResponder, sameLink]

/-- The flows that are torn down by some of these events. -/
def tornBy (events : List Event) (n : Negotiation) : List AgreementKey :=
  (events.filter (n.tearsDown ·)).map Event.key

theorem tornBy_singleton :
    n.tornBy [event] = if n.tearsDown event = true then [event.key] else [] := by
  rw [tornBy, List.filter_cons, List.filter_nil]
  split <;> rfl

theorem answersOwed_handleTeardown (owes : n.AnswersOwed torn)
    (teardown : event.body = .teardown) :
    (n.handleTeardown event).AnswersOwed (n.tornBy [event] ++ torn) := by
  unfold handleTeardown
  split
  case isTrue fromAccessPoint =>
    have spared : ¬ n.tearsDown event = true := by simp [tearsDown, fromAccessPoint]
    rw [tornBy_singleton, if_neg spared]
    exact answersOwed_of_responderPart owes (responderPart_handleOwnTeardown event n)
  case isFalse fromStation =>
    split
    case isTrue responds =>
      have tears : n.tearsDown event = true := by
        simp only [tearsDown, teardown, responds, beq_self_eq_true, Bool.and_true, Bool.true_and,
          Bool.not_eq_true']
        exact Bool.not_eq_true _ ▸ fromStation
      rw [tornBy_singleton, if_pos tears, List.singleton_append]
      split
      case h_1 unknown =>
        refine Waiting.tearFree owes fun slot found => ?_
        rw [stateOf_of_slot? found] at unknown
        cases unknown
      case h_2 free =>
        refine Waiting.tearFree owes fun slot found => ?_
        rw [stateOf_of_slot? found] at free
        exact Option.some.inj free
      case h_3 state busy known =>
        obtain ⟨slot, found, -⟩ := exists_slot_of_stateOf known busy
        simp only [conclude, found]
        exact answersOwed_collectIdle (Waiting.tear owes)
    case isFalse silent =>
      have spared : ¬ n.tearsDown event = true := by simp [tearsDown, silent]
      rw [tornBy_singleton, if_neg spared]
      exact owes

theorem answersOwed_handleEvent (owes : n.AnswersOwed torn) (untorn : event.key ∉ torn) :
    (n.handleEvent event).1.AnswersOwed (n.tornBy [event] ++ torn) := by
  unfold handleEvent
  split
  case h_1 teardown => exact answersOwed_handleTeardown owes teardown
  case h_2 command agreement setup =>
    have spared : ¬ n.tearsDown event = true := by simp [tearsDown, setup]
    rw [tornBy_singleton, if_neg spared, List.nil_append]
    split
    · split
      · split
        · exact owes
        case h_2 stations ensured =>
          have extended : { n with stations }.AnswersOwed torn := Waiting.ensure owes ensured
          exact answersOwed_answerRequest extended untorn rfl
      · exact owes
    · split
      · exact answersOwed_of_responderPart owes (responderPart_handleAnswer event command n)
      · exact owes

theorem answersOwed_handleAll {events : List Event} (owes : n.AnswersOwed torn)
    (distinct : (events.map Event.key).Nodup) (untorn : ∀ event ∈ events, event.key ∉ torn) :
    (handleAll events n).1.AnswersOwed (n.tornBy events ++ torn) := by
  induction events generalizing n torn with
  | nil => exact owes
  | cons event rest inductionHypothesis =>
      rw [List.map_cons, List.nodup_cons] at distinct
      have first := answersOwed_handleEvent owes (untorn event List.mem_cons_self)
      -- Each flow has one event at most, so what was torn down is not asked for again.
      have restUntorn : ∀ later ∈ rest, later.key ∉ n.tornBy [event] ++ torn := by
        intro later member
        rw [List.mem_append, not_or]
        refine ⟨fun isTorn => ?_, untorn later (List.mem_cons_of_mem _ member)⟩
        obtain ⟨other, otherMember, sameKey⟩ := List.mem_map.mp isTorn
        rw [List.mem_singleton.mp (List.mem_filter.mp otherMember).1] at sameKey
        exact distinct.1 (sameKey ▸ List.mem_map_of_mem member)
      have all := inductionHypothesis first distinct.2 restUntorn
      refine Waiting.of_mem_iff all fun key => ?_
      have sameTorn : (n.handleEvent event).1.tornBy rest = n.tornBy rest := by
        simp only [tornBy, tearsDown_of_surroundings (surroundings_handleEvent event n)]
      have split : n.tornBy (event :: rest) = n.tornBy [event] ++ n.tornBy rest := by
        rw [tornBy, ← List.singleton_append, List.filter_append, List.map_append]
        rfl
      rw [sameTorn, split]
      simp only [List.mem_append]
      exact or_assoc.trans or_left_comm

theorem answersOwed_handleEvents {source : Option MacAddress} (owes : n.AnswersOwed [])
    (distinct : n.events.Distinct) :
    (n.handleEvents source).AnswersOwed (n.tornBy (n.due source)) := by
  obtain ⟨events, tasks, handled⟩ := handleEvents_eq source n
  have opened : (n.opened source).AnswersOwed [] := owes
  have all := answersOwed_handleAll opened (distinct_due distinct source) (by simp)
  rw [handled]
  rw [List.append_nil] at all
  exact all

/-! ### Operations -/

/-- The teardowns of an operation take along the answers that wait for their flows. -/
def TeardownsTakeAnswers (n : Negotiation) : Operation → Prop
  | .handleEvents source => ∀ event ∈ n.due source, n.tearsDown event = true →
      (n.handleEvents source).answers.contains event.source event.flow = false
  | _ => True

/-- At rest all waiting answers are owed, and no two events of one flow are queued. -/
structure Steady (n : Negotiation) : Prop where
  owes : n.AnswersOwed []
  distinctEvents : n.events.Distinct

theorem steady_new (settings : Settings) : (new settings).Steady where
  owes := Waiting.empty settings.maximumStations
  distinctEvents := EventQueue.distinct_empty

theorem answersOwed_takeAnswer (owes : n.AnswersOwed []) :
    (n.takeAnswer peer).2.AnswersOwed [] := by
  have left : (n.withoutAnswer peer).AnswersOwed [] := Waiting.takeOut owes
  have taken := answerTaken peer n
  generalize n.takeAnswer peer = result at taken ⊢
  cases taken with
  | nothing => exact owes
  | established first =>
      exact answersOwed_conclude left List.not_mem_nil fun _ =>
        EventQueue.key_ne_of_mem_eraseP owes.distinct first
  | cleared first =>
      exact answersOwed_conclude left List.not_mem_nil fun _ =>
        EventQueue.key_ne_of_mem_eraseP owes.distinct first
  | kept => exact left
  | refused => exact left

theorem answersOwed_handleEvents_of_taken {source : Option MacAddress} (steady : n.Steady)
    (taken : n.TeardownsTakeAnswers (.handleEvents source)) :
    (n.handleEvents source).AnswersOwed [] := by
  refine (answersOwed_handleEvents steady.owes steady.distinctEvents).settle ?_
  intro answer member isTorn
  obtain ⟨event, eventMember, sameKey⟩ := List.mem_map.mp isTorn
  obtain ⟨isDue, tears⟩ := List.mem_filter.mp eventMember
  have waits : (n.handleEvents source).answers.contains event.source event.flow = true :=
    EventQueue.contains_iff.mpr ⟨answer, member, sameKey.symm⟩
  rw [taken event isDue tears] at waits
  cases waits

/-- Every operation keeps to what is owed, if its teardowns take the waiting answers along. -/
theorem steady_apply {operation : Operation} (steady : n.Steady)
    (taken : n.TeardownsTakeAnswers operation) : (operation.apply n).Steady where
  distinctEvents := distinct_apply steady.distinctEvents operation
  owes := by
    have owes := steady.owes
    have result := applied n operation
    generalize operation.apply n = m at result ⊢
    cases result with
    | untouched same => exact answersOwed_of_responderPart owes same
    | queued _ same => exact answersOwed_of_responderPart (n := n.queueEvent _) owes same
    | noted _ ensured same =>
        refine answersOwed_of_responderPart ?_ same
        exact Waiting.modify (Waiting.ensure owes ensured) (fun _ => rfl) (fun _ => rfl)
    | handled => exact answersOwed_handleEvents_of_taken steady taken
    | taken => exact answersOwed_takeAnswer owes
    | forgotten peer same =>
        exact answersOwed_of_responderPart (n := n.dropStation peer) (Waiting.drop owes peer) same
    | purged => exact owes
    | cleared => exact Waiting.clear n.stations

/-- What is owed confirms all that its flow holds. -/
theorem confirms_of_steady {α : Type} {view : Agreement → α} (steady : n.Steady)
    (operation : Operation) : Confirms view n operation := by
  intro peer answer agreement state takes first accepts stands considering
  have member := EventQueue.mem_of_peek? first
  cases steady.owes.owed answer member List.not_mem_nil with
  | acceptance found _ carries holds =>
      cases carries.symm.trans accepts
      exact ⟨agreement, by rw [StationTable.agreement?, found]; exact holds, rfl⟩
  | rejection _ _ rejects => cases rejects.symm.trans accepts

/-- Acceptances confirm what their flows hold all along a run whose teardowns take along what waits
for the flows they end. -/
theorem confirms_of_teardownsTakeAnswers {α : Type} {view : Agreement → α} {settings : Settings}
    {operations : List Operation}
    (taken : ∀ step ∈ steps (new settings) operations, step.1.TeardownsTakeAnswers step.2) :
    ∀ step ∈ steps (new settings) operations, Confirms view step.1 step.2 := by
  have steady := Runs.invariant_of_steps Steady (fun n operation => steady_apply)
    (steady_new settings) taken
  intro step member
  exact confirms_of_steady (steady step.1 (Runs.mem_of_mem_steps member).1) step.2

end Negotiation

end TargetWakeTime
