import Mathlib.Data.List.Nodup
import TargetWakeTime.Proofs.Negotiation.GrantedAgreements
import TargetWakeTime.Proofs.Negotiation.IdleStations
import TargetWakeTime.Proofs.Negotiation.Recency

/-!
Contract: what becomes of an agreement after a teardown frame of its flow has come in.

Owns:
- bare flows, whose slot holds no agreement, and that the events of other flows leave them bare;
- that a teardown which is handled leaves neither agreement nor place behind;
- which of the frames that come in before the handling stand in the way: those of the same station
  and flow, because the newest event takes the place of the teardown.

A teardown that comes from the own access point of a requester ends the requester's flow, and not
what the station of that address holds.
-/

namespace TargetWakeTime

namespace StationTable

/-- A flow of a table holds no agreement, or has no slot. -/
structure Bare (key : AgreementKey) (t : StationTable) : Prop where
  distinct : t.Distinct
  holdsNone : t.agreement? key = none

namespace Bare

variable {t s : StationTable} {key : AgreementKey} {peer : MacAddress} {flow : UInt8}

theorem ensure (bare : Bare key t) (ensured : t.ensure peer = .ok s) : Bare key s where
  distinct := distinct_of_ensure ensured bare.distinct
  holdsNone := (agreement?_of_ensure ensured).trans bare.holdsNone

theorem withoutNote (bare : Bare key t) : Bare key (t.withoutNote peer) where
  distinct := distinct_withoutNote bare.distinct
  holdsNone := by
    rw [agreement?, slot?_withoutNote]
    exact bare.holdsNone

theorem setState {state : AgreementState} (bare : Bare key t) :
    Bare key (t.modifySlots peer (·.setState flow state)) where
  distinct := distinct_modifySlots bare.distinct
  holdsNone := agreement?_setState.trans bare.holdsNone

theorem setAgreement {agreement : Option Agreement} (bare : Bare key t) (apart : key ≠ ⟨peer, flow⟩) :
    Bare key (t.modifySlots peer (·.setAgreement flow agreement)) where
  distinct := distinct_modifySlots bare.distinct
  holdsNone := by
    rw [agreement?_setAgreement, if_neg apart]
    exact bare.holdsNone

theorem withdrawn (distinct : t.Distinct) :
    Bare ⟨peer, flow⟩ (t.modifySlots peer (·.setAgreement flow none)) where
  distinct := distinct_modifySlots distinct
  holdsNone := by
    rw [agreement?_setAgreement, if_pos rfl]
    cases t.slot? ⟨peer, flow⟩ <;> rfl

theorem remove (bare : Bare key t) : Bare key (t.remove peer) where
  distinct := distinct_remove bare.distinct
  holdsNone := by
    rw [agreement?_remove bare.distinct, bare.holdsNone, ite_self]

end Bare

end StationTable

namespace Negotiation

open StationTable (Bare)

variable {n m : Negotiation} {peer : MacAddress} {flow : UInt8} {key : AgreementKey}
  {event : Event}

/-! ### Events of other flows -/

theorem bare_collectIdle (bare : Bare key n.stations) : Bare key (n.collectIdle peer).stations := by
  unfold collectIdle
  split
  · split
    · exact bare.remove
    · exact bare
  · exact bare

theorem bare_conclude (bare : Bare key n.stations) (apart : key ≠ event.key)
    (conclusion : Conclusion) : Bare key (n.conclude event conclusion).stations := by
  unfold conclude
  split
  · exact bare
  · cases conclusion
    case established =>
      cases event.agreement? with
      | none => exact bare.setState
      | some agreement => exact bare.setState.setAgreement apart
    case cleared => exact bare_collectIdle (bare.setState.setAgreement apart)

theorem bare_respond {answer : Event} (bare : Bare key n.stations) (apart : key ≠ answer.key)
    (conclusion : Option Conclusion) : Bare key (n.respond answer conclusion).stations := by
  have response := responded answer conclusion n
  generalize n.respond answer conclusion = m at response ⊢
  cases response with
  | unknown => exact bare
  | waiting => exact bare
  | left => exact bare.withoutNote
  | concluded => exact bare_conclude (by exact bare.withoutNote) apart _

theorem bare_reject {agreement : Agreement} (bare : Bare key n.stations)
    (apart : key ≠ ⟨peer, flow⟩) : Bare key (n.reject peer flow agreement).stations :=
  bare_respond bare (by exact apart) _

theorem bare_accept {command : SetupCommand} {agreement : Agreement} (bare : Bare key n.stations)
    (apart : key ≠ ⟨peer, flow⟩) :
    Bare key (n.accept peer flow command agreement).stations := by
  rw [accept_eq]
  dsimp only
  split
  case h_1 => exact bare_reject (by exact bare) apart
  case h_2 => exact bare_respond (by exact bare.setAgreement apart) apart _

theorem bare_answerRequest {command : SetupCommand} {agreement : Agreement}
    {state : AgreementState} (bare : Bare key n.stations) (apart : key ≠ ⟨peer, flow⟩) :
    Bare key (n.answerRequest peer flow command agreement state).stations := by
  unfold answerRequest
  split
  case h_1 =>
    unfold consider
    split
    · exact bare
    · cases command
      case request | suggest => exact bare_accept (by exact bare.setState) apart
      case demand | grouping => exact bare_reject (by exact bare.setState) apart
      all_goals exact bare
  case h_6 =>
    split
    · exact bare
    · exact bare_reject bare apart
  all_goals exact bare

theorem bare_of_responderPart (bare : Bare key n.stations)
    (same : m.responderPart = n.responderPart) : Bare key m.stations := by
  rwa [show m.stations = n.stations from congrArg ResponderPart.stations same]

/-- An event of another flow brings no agreement to a flow that holds none. -/
theorem bare_handleEvent (bare : Bare key n.stations) (apart : key ≠ event.key) :
    Bare key (n.handleEvent event).1.stations := by
  unfold handleEvent
  split
  case h_1 =>
    unfold handleTeardown
    split
    · exact bare_of_responderPart bare (responderPart_handleOwnTeardown event n)
    · split
      · split
        · exact bare
        · exact bare
        · exact bare_conclude bare apart .cleared
      · exact bare
  case h_2 command agreement _ =>
    split
    · split
      · split
        · exact bare
        case h_2 stations ensured => exact bare_answerRequest (by exact bare.ensure ensured) apart
      · exact bare
    · split
      · exact bare_of_responderPart bare (responderPart_handleAnswer event command n)
      · exact bare

theorem bare_handleAll {events : List Event} (bare : Bare key n.stations)
    (apart : ∀ event ∈ events, key ≠ event.key) : Bare key (handleAll events n).1.stations :=
  holds_handleAll (fun n => Bare key n.stations)
    (fun event member _ bare => bare_handleEvent bare (apart event member)) bare

/-! ### The teardown itself -/

/-- Nothing is left of an agreement. -/
structure Ended (key : AgreementKey) (n : Negotiation) : Prop where
  free : n.stations.busy? key = none
  holdsNone : n.stations.agreement? key = none
  places : ∀ interval, key ∉ n.schedule.entries interval

/-- The teardown of a flow in agreement takes the agreement out of its slot. -/
theorem bare_handleEvent_of_tearsDown (orderly : n.Orderly) (agreed : Agreed event.key n)
    (tears : n.tearsDown event = true) : Bare event.key (n.handleEvent event).1.stations := by
  obtain ⟨slot, found, inAgreement⟩ := agreed
  have stands : n.stateOf event.source event.flow = some .agreement :=
    Agreed.stateOf ⟨slot, found, inAgreement⟩
  simp only [tearsDown, Bool.and_eq_true, Bool.not_eq_true', beq_iff_eq] at tears
  obtain ⟨⟨teardown, responds⟩, elsewhere⟩ := tears
  have foundSlot : n.stations.slot? ⟨event.source, event.flow⟩ = some slot := found
  have concluded : (n.handleEvent event).1 = n.conclude event .cleared := by
    simp only [handleEvent, teardown, handleTeardown, elsewhere, Bool.false_eq_true, if_false,
      responds, if_true, stands]
  rw [concluded, conclude, foundSlot]
  have freed : (n.setState event.source event.flow .noAgreement).stations.Distinct :=
    StationTable.distinct_modifySlots orderly.distinct
  exact bare_collectIdle (by exact Bare.withdrawn freed)

/-- A batch with the teardown of a flow in agreement leaves nothing of the agreement: no other event
of the batch is about the flow. -/
theorem bare_handleAll_of_tearsDown {events : List Event} (orderly : n.Orderly)
    (agreed : Agreed event.key n) (distinct : (events.map Event.key).Nodup)
    (member : event ∈ events) (tears : n.tearsDown event = true) :
    Bare event.key (handleAll events n).1.stations := by
  induction events generalizing n with
  | nil => cases member
  | cons first rest inductionHypothesis =>
      rw [List.map_cons, List.nodup_cons] at distinct
      have concerns := concerns_handleEvent orderly first
      rcases List.mem_cons.mp member with rfl | later
      · have restElsewhere : ∀ other ∈ rest, event.key ≠ other.key :=
          fun other inRest same => distinct.1 (same ▸ List.mem_map_of_mem inRest)
        exact bare_handleAll (n := (n.handleEvent event).1)
          (bare_handleEvent_of_tearsDown orderly agreed tears) restElsewhere
      · have apart : event.key ≠ first.key := fun same =>
          distinct.1 (same ▸ List.mem_map_of_mem later)
        have stillAgreed : Agreed event.key (n.handleEvent first).1 :=
          agreed.of_kept (agreed.kept (concerns.others event.key apart))
        refine inductionHypothesis concerns.orderly stillAgreed distinct.2 later ?_
        exact (tearsDown_of_surroundings (surroundings_handleEvent first n) event).trans tears

/-- Once a teardown of its flow is handled, nothing is left of an agreement. -/
theorem ended_handleEvents {source : Option MacAddress} (orderly : n.Orderly)
    (distinct : n.events.Distinct) (agreed : Agreed key n)
    (ends : (Operation.handleEvents source).Ends key n) : Ended key (n.handleEvents source) := by
  obtain ⟨event, isDue, rfl, tears⟩ := ends
  obtain ⟨events, tasks, handled⟩ := handleEvents_eq source n
  have opened : (n.opened source).Orderly :=
    ⟨orderly.distinct, orderly.wellFormed, orderly.listed⟩
  have agreedThen : Agreed event.key (n.opened source) := agreed
  have free := busy?_handleAll_of_tearsDown opened (distinct_due distinct source) isDue tears
  have bare := bare_handleAll_of_tearsDown opened agreedThen (distinct_due distinct source) isDue
    tears
  have stillOrderly := orderly_handleEvents orderly source
  rw [handled] at stillOrderly ⊢
  exact ⟨free, bare.holdsNone, fun interval place => stillOrderly.listed _ interval place free⟩

/-! ### Frames that come in before the handling -/

/-- Whether an operation takes in an element, whichever frame it came in. -/
def Operation.takesElement : Operation → Bool
  | receiveElement .. | receiveSetup .. => true
  | _ => false

/-- What becomes of a state with a flow in agreement while elements come in, which bring events. -/
structure Awaits (key : AgreementKey) (n : Negotiation) (brought : List Event) (m : Negotiation) :
    Prop where
  orderly : m.Orderly
  kept : Kept key n m
  sameSide : ∀ event, m.tearsDown event = n.tearsDown event
  newest : NewestOnly (n.events.toList ++ brought) m.events
  setups : ∀ event ∈ brought, event.body ≠ .teardown
  /-- What was queued before stays if nothing newer of its flow comes in. -/
  spares : ∀ event ∈ n.events.toList, (∀ newer ∈ brought, newer.key ≠ event.key) →
    event ∈ m.events.toList

theorem tearsDown_takesElement {operation : Operation} (elements : operation.takesElement = true)
    (event : Event) : (operation.apply n).tearsDown event = n.tearsDown event := by
  cases operation
  case receiveElement source element =>
    have received := elementReceived source element n
    rw [Operation.apply]
    generalize n.receiveElement source element = result at received ⊢
    cases received <;> rfl
  case receiveSetup source token element =>
    have received := setupReceived source token element n
    rw [Operation.apply]
    generalize n.receiveSetup source token element = result at received ⊢
    cases received <;> rfl
  all_goals cases elements

theorem body_of_takesElement {operation : Operation} (elements : operation.takesElement = true)
    (queued : operation.queued? n = some event) : event.body ≠ .teardown := by
  cases operation
  case receiveElement source element | receiveSetup source token element =>
    obtain ⟨agreement, -, rfl⟩ := Option.map_eq_some_iff.mp queued
    simp [Event.setup]
  all_goals cases elements

/-- In a queue of distinct keys every event is the newest of its source and flow. -/
theorem newestOnly_of_distinct {q : EventQueue} (distinct : q.Distinct) : NewestOnly q.toList q where
  distinct := distinct
  newest event member := by
    cases last : (q.toList.filter (·.key = event.key)).getLast? with
    | none =>
        rw [List.getLast?_eq_none_iff, List.filter_eq_nil_iff] at last
        exact absurd (decide_eq_true rfl) (last event member)
    | some other =>
        obtain ⟨queued, sameKey⟩ := List.mem_filter.mp (List.mem_of_getLast? last)
        rw [List.inj_on_of_nodup_map distinct queued member (of_decide_eq_true sameKey)]

namespace Awaits

variable {brought : List Event} {operation : Operation} {operations : List Operation}

theorem refl (orderly : n.Orderly) (distinct : n.events.Distinct) : Awaits key n [] n where
  orderly := orderly
  kept := .refl key n
  sameSide _ := rfl
  newest := by
    rw [List.append_nil]
    exact newestOnly_of_distinct distinct
  setups := by simp
  spares _ member _ := member

theorem apply (agreed : Agreed key n) (awaits : Awaits key n brought m)
    (elements : operation.takesElement = true) :
    Awaits key n (brought ++ (operation.queued? m).toList) (operation.apply m) where
  orderly := orderly_apply awaits.orderly operation
  kept := by
    have spared : ¬ operation.Ends key m := by
      cases operation
      case receiveElement | receiveSetup => exact id
      all_goals cases elements
    exact awaits.kept.trans ((agreed.of_kept awaits.kept).kept_of_not_ends awaits.orderly
      awaits.newest.distinct spared)
  sameSide event := (tearsDown_takesElement elements event).trans (awaits.sameSide event)
  newest := by
    rw [← List.append_assoc]
    exact newestOnly_apply awaits.newest operation
  setups event member := by
    rcases List.mem_append.mp member with earlier | now
    · exact awaits.setups event earlier
    · exact body_of_takesElement elements (Option.mem_toList.mp now)
  spares event member apart := by
    have waiting := awaits.spares event member
      fun newer earlier => apart newer (List.mem_append_left _ earlier)
    cases queued : operation.queued? m with
    | some newer =>
        rw [events_of_queued queued, EventQueue.mem_pushLatest]
        refine .inl ⟨waiting, Ne.symm (apart newer ?_)⟩
        simp [queued]
    | none =>
        have keeps : operation.sorts = false := by
          cases operation
          case receiveElement | receiveSetup => rfl
          all_goals cases elements
        rwa [events_of_silent queued keeps]

theorem run (agreed : Agreed key n) (awaits : Awaits key n brought m)
    (elements : ∀ operation ∈ operations, operation.takesElement = true) :
    Awaits key n (brought ++ log m operations) (run m operations) := by
  induction operations generalizing brought m with
  | nil => simpa [log, steps, Runs.steps, Negotiation.run] using awaits
  | cons operation rest inductionHypothesis =>
      rw [log_cons, ← List.append_assoc]
      exact inductionHypothesis (awaits.apply agreed (elements operation List.mem_cons_self))
        fun later member => elements later (List.mem_cons_of_mem _ member)

end Awaits

/-! ### The handling after them -/

namespace Awaits

variable {brought : List Event}

/-- A teardown that nothing newer has superseded is handled. -/
theorem ended (agreed : Agreed key n) (awaits : Awaits key n brought m)
    (waiting : event ∈ n.events.toList) (sameKey : event.key = key)
    (tears : n.tearsDown event = true) (latest : ∀ newer ∈ brought, newer.key ≠ key) :
    Ended key (m.handleEvents none) := by
  subst sameKey
  have stillWaiting : event ∈ m.due none :=
    List.mem_filter.mpr ⟨awaits.spares event waiting latest, rfl⟩
  exact ended_handleEvents awaits.orderly awaits.newest.distinct (agreed.of_kept awaits.kept)
    ⟨event, stillWaiting, rfl, (awaits.sameSide event).trans tears⟩

/-- Once an element of a flow has come in, the newest event of the flow is not a teardown. -/
theorem not_ends_of_newer (awaits : Awaits key n brought m)
    (newer : ∃ event ∈ brought, event.key = key) :
    ¬ (Operation.handleEvents none).Ends key m := by
  rintro ⟨event, isDue, rfl, tears⟩
  have newest := awaits.newest.newest event (List.mem_filter.mp isDue).1
  rw [List.filter_append, List.getLast?_append] at newest
  cases last : (brought.filter (·.key = event.key)).getLast? with
  | none =>
      obtain ⟨other, isBrought, sameKey⟩ := newer
      rw [List.getLast?_eq_none_iff, List.filter_eq_nil_iff] at last
      exact last other isBrought (decide_eq_true sameKey)
  | some other =>
      rw [last, Option.some_or, Option.some.injEq] at newest
      subst newest
      have isBrought := (List.mem_filter.mp (List.mem_of_getLast? last)).1
      simp only [tearsDown, Bool.and_eq_true, beq_iff_eq] at tears
      exact awaits.setups other isBrought tears.1.1

/-- The own access point of a requester tears down no flow of a station. -/
theorem not_ends_of_ownAccessPoint (awaits : Awaits key n brought m)
    (own : (n.requester && n.isBssid key.address) = true) :
    ¬ (Operation.handleEvents none).Ends key m := by
  rintro ⟨event, -, rfl, tears⟩
  rw [awaits.sameSide, tearsDown, show event.source = event.key.address from rfl, own] at tears
  simp at tears

theorem kept_handleEvents (agreed : Agreed key n) (awaits : Awaits key n brought m)
    (spared : ¬ (Operation.handleEvents none).Ends key m) : Kept key n (m.handleEvents none) :=
  awaits.kept.trans (((agreed.of_kept awaits.kept).kept_handleEvents_iff awaits.orderly
    awaits.newest.distinct).mpr spared)

end Awaits

theorem receiveTeardown_of_ok (taken : (n.receiveTeardown peer flow).1 = .ok ()) :
    (n.receiveTeardown peer flow).2 =
      (n.queueEvent (.teardown peer flow)).defer (.handleEvents none) := by
  have received := teardownReceived peer flow n
  generalize n.receiveTeardown peer flow = result at received taken ⊢
  cases received with
  | unknown => cases taken
  | queued => rfl

/-- In every state of an interface that answers requests, a teardown frame of a flow in agreement,
followed by any frames with elements and then by a handling, leaves nothing of the agreement, if none
of these frames is about the same flow and the teardown does not come from the own access point of a
requester. Otherwise the agreement stays as it was. -/
theorem teardown_takesEffect_unless_superseded (settings : Settings) (operations : List Operation)
    (responds : settings.responder = true) (n : Negotiation)
    (isReached : n ∈ reached (new settings) operations) (key : AgreementKey) (slot : Slot)
    (found : n.stations.slot? key = some slot) (granted : slot.state = .agreement)
    (taken : (n.receiveTeardown key.address key.flow).1 = .ok ()) (frames : List Operation)
    (elements : ∀ frame ∈ frames, frame.takesElement = true) :
    let torn := (n.receiveTeardown key.address key.flow).2
    let handled := (run torn frames).handleEvents none
    let fromAccessPoint := n.requester && n.isBssid key.address
    let superseded := ∃ event ∈ log torn frames, event.key = key
    (fromAccessPoint = false → ¬ superseded → Ended key handled) ∧
      (fromAccessPoint = true ∨ superseded → Kept key n handled) := by
  intro torn handled fromAccessPoint superseded
  have orderly := orderly_reached settings operations n isReached
  have distinct := distinct_reached settings operations n isReached
  have answers := responder_reached responds n isReached
  let teardown : Event := .teardown key.address key.flow
  have sameKey : teardown.key = key :=
    Event.key_teardown key.address (StationTable.flow_lt_of_slot? found)
  have isTorn : torn = (n.queueEvent teardown).defer (.handleEvents none) :=
    receiveTeardown_of_ok taken
  have agreed : Agreed key n := ⟨slot, found, granted⟩
  have spared : ¬ (Operation.receiveTeardown key.address key.flow).Ends key n := id
  have keptTorn : Kept key n torn := agreed.kept_of_not_ends orderly distinct spared
  have agreedTorn : Agreed key torn := agreed.of_kept keptTorn
  have awaits : Awaits key torn (log torn frames) (run torn frames) := by
    have start : Awaits key torn [] torn :=
      .refl (orderly_apply orderly (.receiveTeardown key.address key.flow))
        (distinct_apply distinct (.receiveTeardown key.address key.flow))
    simpa using start.run agreedTorn elements
  constructor
  · intro elsewhere latest
    have waiting : teardown ∈ torn.events.toList := by
      rw [isTorn]
      exact EventQueue.mem_pushLatest.mpr (.inr rfl)
    have tears : torn.tearsDown teardown = true := by
      rw [isTorn]
      show (true && n.responder && !fromAccessPoint) = true
      rw [answers, elsewhere]
      rfl
    refine awaits.ended agreedTorn waiting sameKey tears fun newer member same => ?_
    exact latest ⟨newer, member, same⟩
  · rintro (own | newer)
    · have ownThen : (torn.requester && torn.isBssid key.address) = true := by
        rw [isTorn]
        exact own
      exact keptTorn.trans (awaits.kept_handleEvents agreedTorn
        (awaits.not_ends_of_ownAccessPoint ownThen))
    · exact keptTorn.trans (awaits.kept_handleEvents agreedTorn (awaits.not_ends_of_newer newer))

/-- A station asks for a flow, gets it, and takes its answer. -/
def servedOnce : List Operation :=
  let peer : MacAddress := ⟨2, 0, 0, 0, 0, 1⟩
  [.receiveElement peer (requestElement 0 1 1024), .handleEvents none, .takeAnswer peer]

/-- Frames about another flow and from another station do not keep the teardown from taking effect,
and a request for the same flow does. -/
theorem teardown_takesEffect_unless_superseded_servedOnce :
    let key : AgreementKey := ⟨⟨2, 0, 0, 0, 0, 1⟩, 0⟩
    let n := run (new .accessPoint) servedOnce
    let torn := (n.receiveTeardown key.address key.flow).2
    Ended key
        ((run torn [.receiveElement key.address (requestElement 1 1 1024),
          .receiveSetup ⟨2, 0, 0, 0, 0, 2⟩ 1 (requestElement 0 1 1024)]).handleEvents none) ∧
      Kept key n
        ((run torn [.receiveElement key.address (requestElement 0 2 2048)]).handleEvents none) := by
  intro key n torn
  have agreed : (n.stations.slot? key).map (·.state) = some .agreement := by decide +kernel
  obtain ⟨slot, found, inAgreement⟩ := Option.map_eq_some_iff.mp agreed
  have taken : (n.receiveTeardown key.address key.flow).1 = .ok () := by decide +kernel
  have effect := teardown_takesEffect_unless_superseded .accessPoint servedOnce rfl n
    (run_mem_reached _ _) key slot found inAgreement taken
  constructor
  · refine (effect _ (by decide)).1 (by decide +kernel) ?_
    decide +kernel
  · refine (effect _ (by decide)).2 (.inr ?_)
    decide +kernel

/-- The flow is asked for once more before its teardown is handled: the request is rejected, and the
agreement keeps its slot and its place. So it does if the station has become the access point of an
interface that makes requests as well, with nothing in between. -/
theorem not_ended_askedAfterTeardown :
    let key : AgreementKey := ⟨⟨2, 0, 0, 0, 0, 1⟩, 0⟩
    let n := run (new .accessPoint) servedOnce
    let torn := (n.receiveTeardown key.address key.flow).2
    let handled :=
      (run torn [.receiveElement key.address (requestElement 0 2 2048)]).handleEvents none
    let both := run (new { requester := true, responder := true })
      (servedOnce ++ [.relink { bssid := some key.address }])
    let handledBoth := (both.receiveTeardown key.address key.flow).2.handleEvents none
    (n.stateOf key.address key.flow = some .agreement ∧
        (n.receiveTeardown key.address key.flow).1 = .ok () ∧
        handled.stations.agreement? key = n.stations.agreement? key ∧
        handled.stations.agreement? key ≠ none ∧ key ∈ handled.schedule.entries 1024) ∧
      both.stateOf key.address key.flow = some .agreement ∧
        (both.receiveTeardown key.address key.flow).1 = .ok () ∧
        handledBoth.stations.agreement? key ≠ none ∧ key ∈ handledBoth.schedule.entries 1024 := by
  decide +kernel

end Negotiation

end TargetWakeTime
