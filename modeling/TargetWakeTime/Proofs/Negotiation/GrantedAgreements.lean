import TargetWakeTime.Proofs.Negotiation.Isolation
import TargetWakeTime.Proofs.Negotiation.WaitingAnswers

/-!
Contract: an agreement stays as it was granted until somebody ends it.

Owns:
- what it means that a flow is kept: its slot, with all that stands in it, and its places;
- the operations that end the agreement of a flow;
- that a flow in agreement is kept by exactly the other operations.

Requests for a flow in agreement are rejected, and rejecting them changes nothing; what is done
about other flows leaves it alone anyway.
-/

namespace TargetWakeTime.Negotiation

/-- A flow keeps its slot, with all that stands in it, and its places in the schedule. -/
structure Kept (key : AgreementKey) (n m : Negotiation) : Prop where
  slot : m.stations.slot? key = n.stations.slot? key
  places : ∀ interval, key ∈ m.schedule.entries interval ↔ key ∈ n.schedule.entries interval

/-- Whether an operation ends the agreement of a flow: by a teardown of the flow that it handles, or
because it forgets the flow's station or everything. -/
def Operation.Ends (key : AgreementKey) (n : Negotiation) : Operation → Prop
  | .handleEvents source => ∃ event ∈ n.due source, event.key = key ∧ n.tearsDown event = true
  | .removeStation peer => peer = key.address
  | .clear => True
  | _ => False

instance (key : AgreementKey) (n : Negotiation) : DecidablePred (Operation.Ends key n)
  | .handleEvents source =>
      inferInstanceAs
        (Decidable (∃ event ∈ n.due source, event.key = key ∧ n.tearsDown event = true))
  | .removeStation peer => inferInstanceAs (Decidable (peer = key.address))
  | .clear => isTrue trivial
  | .receiveElement .. | .receiveSetup .. | .receiveTeardown .. | .queueEvent _ | .takeAnswer _
  | .takeResponseElement _ | .purgeEvents _ | .takeTasks | .relink _ | .sendRequest ..
  | .associationRequestElement | .beginTeardown _ | .teardownSent .. | .authorized
  | .takeCommands | .forceInstalled _ | .commitInstall _ | .commitUninstall _ => isFalse id

/-- The flow has an agreement. -/
def Agreed (key : AgreementKey) (n : Negotiation) : Prop :=
  ∃ slot, n.stations.slot? key = some slot ∧ slot.state = .agreement

variable {n m middle : Negotiation} {peer : MacAddress} {flow : UInt8} {key : AgreementKey}
  {event : Event}

theorem Kept.refl (key : AgreementKey) (n : Negotiation) : Kept key n n :=
  ⟨rfl, fun _ => Iff.rfl⟩

theorem Kept.trans (first : Kept key n middle) (second : Kept key middle m) : Kept key n m where
  slot := second.slot.trans first.slot
  places interval := (second.places interval).trans (first.places interval)

theorem Agreed.of_kept (agreed : Agreed key n) (kept : Kept key n m) : Agreed key m := by
  obtain ⟨slot, found, inAgreement⟩ := agreed
  exact ⟨slot, kept.slot.trans found, inAgreement⟩

theorem Agreed.stateOf (agreed : Agreed key n) :
    n.stateOf key.address key.flow = some .agreement := by
  obtain ⟨slot, found, inAgreement⟩ := agreed
  rw [stateOf_of_slot? found, inAgreement]

/-- A flow in agreement that is left alone is kept. -/
theorem Agreed.kept (agreed : Agreed key n) (undisturbed : Undisturbed key n m) : Kept key n m := by
  obtain ⟨slot, found, inAgreement⟩ := agreed
  have busy : n.stations.busy? key = some slot :=
    StationTable.busy?_eq_some_iff.mpr ⟨found, by simp [inAgreement]⟩
  refine ⟨?_, undisturbed.places⟩
  rw [found]
  exact (StationTable.busy?_eq_some_iff.mp (undisturbed.slot.trans busy)).1

/-- A flow that is not busy any more has lost its agreement. -/
theorem Agreed.not_kept (agreed : Agreed key n) (free : m.stations.busy? key = none) :
    ¬ Kept key n m := by
  intro kept
  obtain ⟨slot, found, inAgreement⟩ := agreed.of_kept kept
  have noAgreement := StationTable.busy?_eq_none_iff.mp free slot found
  rw [inAgreement] at noAgreement
  cases noAgreement

theorem kept_of_responderPart (same : m.responderPart = n.responderPart) : Kept key n m := by
  have sameStations : m.stations = n.stations := congrArg ResponderPart.stations same
  have sameSchedule : m.schedule = n.schedule := congrArg ResponderPart.schedule same
  refine ⟨?_, fun interval => ?_⟩
  · rw [sameStations]
  · rw [sameSchedule]

/-! ### Events -/

/-- An answer that ends nothing changes nothing, however it leaves. -/
theorem kept_respond (answer : Event) : Kept key n (n.respond answer none) := by
  have response := responded answer none n
  generalize n.respond answer none = m at response ⊢
  cases response with
  | unknown => exact .refl key n
  | waiting => exact ⟨rfl, fun _ => Iff.rfl⟩
  | left => exact ⟨StationTable.slot?_withoutNote, fun _ => Iff.rfl⟩
  | concluded ends => cases ends

/-- A request for a flow in agreement is rejected at most, and the flow does not notice. -/
theorem Agreed.kept_answerRequest {command : SetupCommand} {agreement : Agreement}
    (agreed : Agreed ⟨peer, flow⟩ n) :
    Kept ⟨peer, flow⟩ n (n.answerRequest peer flow command agreement .agreement) := by
  show Kept _ n (if n.answers.contains peer flow then n else n.reject peer flow agreement)
  split
  · exact .refl _ n
  · have stands : n.stateOf peer flow = some .agreement := agreed.stateOf
    simp only [reject, stands, beq_self_eq_true, if_true]
    exact kept_respond _

/-- No event but a teardown of its own ends the agreement of a flow. -/
theorem Agreed.kept_handleEvent (agreed : Agreed key n) (orderly : n.Orderly)
    (spared : ¬ (event.key = key ∧ n.tearsDown event = true)) :
    Kept key n (n.handleEvent event).1 := by
  by_cases own : event.key = key
  case neg => exact agreed.kept ((concerns_handleEvent orderly event).others key (Ne.symm own))
  case pos =>
    have untorn : ¬ n.tearsDown event = true := fun tears => spared ⟨own, tears⟩
    subst own
    unfold handleEvent
    split
    case h_1 teardown =>
      unfold handleTeardown
      split
      case isTrue => exact kept_of_responderPart (responderPart_handleOwnTeardown event n)
      case isFalse elsewhere =>
        split
        case isTrue responds => simp [tearsDown, teardown, responds, elsewhere] at untorn
        case isFalse => exact .refl _ n
    case h_2 command agreement _ =>
      split
      · split
        · split
          · exact .refl _ n
          case h_2 stations ensured =>
            have extended := agreed.kept ((neutral_ensure orderly ensured).flows event.key)
            have stillAgreed := agreed.of_kept extended
            have stands : { n with stations }.stateOf event.source event.flow = some .agreement :=
              stillAgreed.stateOf
            dsimp only
            rw [stands]
            exact extended.trans stillAgreed.kept_answerRequest
        · exact .refl _ n
      · split
        · exact kept_of_responderPart (responderPart_handleAnswer event command n)
        · exact .refl _ n

theorem Agreed.kept_handleAll {events : List Event} (agreed : Agreed key n) (orderly : n.Orderly)
    (spared : ∀ event ∈ events, ¬ (event.key = key ∧ n.tearsDown event = true)) :
    Kept key n (handleAll events n).1 := by
  induction events generalizing n with
  | nil => exact .refl key n
  | cons event rest inductionHypothesis =>
      have first := agreed.kept_handleEvent orderly (spared event List.mem_cons_self)
      refine first.trans (inductionHypothesis (agreed.of_kept first)
        (concerns_handleEvent orderly event).orderly fun later member => ?_)
      rw [tearsDown_of_surroundings (surroundings_handleEvent event n)]
      exact spared later (List.mem_cons_of_mem _ member)

/-- A teardown that is handled leaves its flow free. -/
theorem busy?_handleEvent_of_tearsDown (orderly : n.Orderly) (tears : n.tearsDown event = true) :
    (n.handleEvent event).1.stations.busy? event.key = none := by
  simp only [tearsDown, Bool.and_eq_true, Bool.not_eq_true', beq_iff_eq] at tears
  obtain ⟨⟨teardown, responds⟩, elsewhere⟩ := tears
  simp only [handleEvent, teardown, handleTeardown, elsewhere, Bool.false_eq_true, if_false,
    responds, if_true]
  split
  case h_1 unknown =>
    rw [StationTable.busy?_eq_none_iff]
    intro slot found
    rw [stateOf_of_slot? found] at unknown
    cases unknown
  case h_2 free =>
    rw [StationTable.busy?_eq_none_iff]
    intro slot found
    rw [stateOf_of_slot? found] at free
    exact Option.some.inj free
  case h_3 =>
    rw [Option.eq_none_iff_forall_ne_some]
    intro slot busy
    cases (busy?_conclude orderly busy).1

/-- After a batch with a teardown of a flow the flow is free: no other event of the batch is about
it. -/
theorem busy?_handleAll_of_tearsDown {events : List Event} (orderly : n.Orderly)
    (distinct : (events.map Event.key).Nodup) (member : event ∈ events)
    (tears : n.tearsDown event = true) :
    (handleAll events n).1.stations.busy? event.key = none := by
  induction events generalizing n with
  | nil => cases member
  | cons first rest inductionHypothesis =>
      rw [List.map_cons, List.nodup_cons] at distinct
      have orderlyFirst := (concerns_handleEvent orderly first).orderly
      rcases List.mem_cons.mp member with rfl | later
      · have restElsewhere : ∀ other ∈ rest, other.key ≠ event.key :=
          fun other inRest same => distinct.1 (same ▸ List.mem_map_of_mem inRest)
        have undisturbed := undisturbed_handleAll orderlyFirst restElsewhere
        exact undisturbed.slot.trans (busy?_handleEvent_of_tearsDown orderly tears)
      · refine inductionHypothesis orderlyFirst distinct.2 later ?_
        exact (tearsDown_of_surroundings (surroundings_handleEvent first n) event).trans tears

/-! ### Operations -/

theorem Agreed.kept_handleEvents_iff {source : Option MacAddress} (agreed : Agreed key n)
    (orderly : n.Orderly) (distinct : n.events.Distinct) :
    Kept key n (n.handleEvents source) ↔ ¬ (Operation.handleEvents source).Ends key n := by
  obtain ⟨events, tasks, handled⟩ := handleEvents_eq source n
  have opened : (n.opened source).Orderly :=
    ⟨orderly.distinct, orderly.wellFormed, orderly.listed⟩
  rw [handled]
  constructor
  · rintro kept ⟨event, isDue, rfl, tears⟩
    have free := busy?_handleAll_of_tearsDown opened (distinct_due distinct source) isDue tears
    exact agreed.not_kept (by exact free) kept
  · intro spared
    have agreedOpened : Agreed key (n.opened source) := agreed
    have kept := agreedOpened.kept_handleAll opened
      fun event (isDue : event ∈ n.due source) ended => spared ⟨event, isDue, ended⟩
    exact ⟨kept.slot, kept.places⟩

/-- Taking out an answer concerns flows under consideration only. -/
theorem Agreed.kept_takeAnswer (agreed : Agreed key n) (orderly : n.Orderly) :
    Kept key n (n.takeAnswer peer).2 := by
  have apart (answer : Event) (state : AgreementState)
      (stands : n.stateOf answer.source answer.flow = some state)
      (considering : state.isConsidering = true) : key ≠ answer.key := by
    rintro rfl
    cases agreed.stateOf.symm.trans stands
    cases considering
  have taken := answerTaken peer n
  generalize n.takeAnswer peer = result at taken ⊢
  cases taken with
  | nothing => exact .refl key n
  | established first _ stands considering =>
      have elsewhere := apart _ _ stands considering
      exact agreed.kept ((concerns_answered orderly first .established).others key elsewhere)
  | cleared first _ stands considering =>
      have elsewhere := apart _ _ stands considering
      exact agreed.kept ((concerns_answered orderly first .cleared).others key elsewhere)
  | kept => exact ⟨rfl, fun _ => Iff.rfl⟩
  | refused => exact ⟨rfl, fun _ => Iff.rfl⟩

theorem Agreed.kept_of_not_ends {operation : Operation} (agreed : Agreed key n)
    (orderly : n.Orderly) (distinct : n.events.Distinct) (spared : ¬ operation.Ends key n) :
    Kept key n (operation.apply n) := by
  have change := change_apply orderly operation
  generalize operation.apply n = m at change ⊢
  cases change with
  | neutral neutral => exact agreed.kept (neutral.flows key)
  | handled source => exact (agreed.kept_handleEvents_iff orderly distinct).mpr spared
  | taken => exact agreed.kept_takeAnswer orderly
  | forgotten peer same =>
      have left : Undisturbed key n (n.dropStation peer) :=
        undisturbed_dropStation orderly fun own => absurd own.symm spared
      exact (agreed.kept left).trans (kept_of_responderPart same)
  | cleared => exact absurd trivial spared

/-- A station that leaves takes its agreements along. -/
theorem Agreed.not_kept_removeStation (agreed : Agreed key n) (orderly : n.Orderly) :
    ¬ Kept key n (n.removeStation key.address).2 := by
  apply agreed.not_kept
  rw [StationTable.busy?_eq_none_iff]
  intro slot found
  have removed := stationRemoved key.address n
  generalize n.removeStation key.address = result at removed found
  cases removed with
  | forgotten =>
      simp only [dropStation] at found
      rw [StationTable.slot?_remove orderly.distinct, if_pos rfl] at found
      cases found
  | unknown absent =>
      obtain ⟨station, known, -⟩ := Option.bind_eq_some_iff.mp found
      rw [StationTable.contains, known] at absent
      cases absent

theorem Agreed.not_kept_of_ends {operation : Operation} (agreed : Agreed key n)
    (orderly : n.Orderly) (distinct : n.events.Distinct) (ends : operation.Ends key n) :
    ¬ Kept key n (operation.apply n) := by
  cases operation
  case handleEvents source =>
    intro kept
    exact (agreed.kept_handleEvents_iff orderly distinct).mp kept ends
  case removeStation peer =>
    rw [show peer = key.address from ends]
    exact agreed.not_kept_removeStation orderly
  case clear => exact agreed.not_kept rfl
  all_goals cases ends

/-- In every state that can be reached, whatever events were queued, an operation keeps a flow in
agreement exactly if it does not end the agreement. -/
theorem keptAgreement_iff_not_ends (settings : Settings) (operations : List Operation)
    (n : Negotiation) (isReached : n ∈ reached (new settings) operations) (key : AgreementKey)
    (slot : Slot) (found : n.stations.slot? key = some slot) (granted : slot.state = .agreement)
    (operation : Operation) :
    Kept key n (operation.apply n) ↔ ¬ operation.Ends key n := by
  have invariant : n.Orderly ∧ n.events.Distinct :=
    invariant_of_apply (fun n => n.Orderly ∧ n.events.Distinct)
      (fun _ operation holds => ⟨orderly_apply holds.1 operation, distinct_apply holds.2 operation⟩)
      ⟨orderly_new settings, EventQueue.distinct_empty⟩ n isReached
  have agreed : Agreed key n := ⟨slot, found, granted⟩
  constructor
  · intro kept ends
    exact agreed.not_kept_of_ends invariant.1 invariant.2 ends kept
  · exact agreed.kept_of_not_ends invariant.1 invariant.2

/-- A station's flow is granted, the station asks for it once more, and another of its flows is torn
down. -/
def askedAgain : List Operation :=
  let peer : MacAddress := ⟨2, 0, 0, 0, 0, 1⟩
  [.receiveElement peer (requestElement 0 1 1024), .handleEvents none, .takeAnswer peer,
    .receiveElement peer (requestElement 0 2 2048), .receiveTeardown peer 1]

/-- Neither the request nor the other flow's teardown ends the agreement, and then a teardown of its
own does. -/
theorem keptAgreement_iff_not_ends_askedAgain :
    let key : AgreementKey := ⟨⟨2, 0, 0, 0, 0, 1⟩, 0⟩
    let asked := run (new .accessPoint) askedAgain
    let torn := run (new .accessPoint) (askedAgain ++ [.receiveTeardown key.address key.flow])
    Kept key asked (asked.handleEvents none) ∧ ¬ Kept key torn (torn.handleEvents none) := by
  intro key asked torn
  have agreed : (asked.stations.slot? key).map (·.state) = some .agreement := by decide +kernel
  have stillAgreed : (torn.stations.slot? key).map (·.state) = some .agreement := by
    decide +kernel
  obtain ⟨slot, found, granted⟩ := Option.map_eq_some_iff.mp agreed
  obtain ⟨tornSlot, tornFound, tornGranted⟩ := Option.map_eq_some_iff.mp stillAgreed
  have spared : ¬ (Operation.handleEvents none).Ends key asked := by decide +kernel
  have ended : (Operation.handleEvents none).Ends key torn := by decide +kernel
  constructor
  · exact (keptAgreement_iff_not_ends .accessPoint askedAgain asked (run_mem_reached _ _) key slot
      found granted (.handleEvents none)).mpr spared
  · intro kept
    exact (keptAgreement_iff_not_ends .accessPoint _ torn (run_mem_reached _ _) key tornSlot
      tornFound tornGranted (.handleEvents none)).mp kept ended

end TargetWakeTime.Negotiation
