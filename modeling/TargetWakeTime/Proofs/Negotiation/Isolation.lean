import TargetWakeTime.Proofs.Negotiation.Surroundings
import TargetWakeTime.Proofs.Schedule.Membership

/-!
Contract: what is done about one flow leaves all other flows alone.

Owns:
- busy flows, which have an agreement or negotiate one;
- orderly states, in which only busy flows have places in the schedule;
- that the handling of an event keeps a state orderly and concerns the flow of the event only: every
  other flow keeps its slot while it is busy, its places, and the answers that wait for it, and the
  only answers that are new say how a negotiation ends.

Nothing is assumed about where events come from, nor about the answers that wait.
-/

namespace TargetWakeTime

namespace StationTable

/-- The slot of a flow that has an agreement or negotiates one. -/
def busy? (key : AgreementKey) (t : StationTable) : Option Slot :=
  (t.slot? key).filter (·.state ≠ .noAgreement)

variable {t : StationTable} {address : MacAddress} {flow : UInt8} {key : AgreementKey}

theorem busy?_eq_some_iff {slot : Slot} :
    t.busy? key = some slot ↔ t.slot? key = some slot ∧ slot.state ≠ .noAgreement := by
  simp [busy?, Option.filter_eq_some_iff]

theorem busy?_eq_none_iff :
    t.busy? key = none ↔ ∀ slot, t.slot? key = some slot → slot.state = .noAgreement := by
  simp [busy?, Option.filter_eq_none_iff]

theorem busy?_of_slot? {s : StationTable} (same : s.slot? key = t.slot? key) :
    s.busy? key = t.busy? key := by
  rw [busy?, same, busy?]

/-- The flows of a new station are not busy. -/
theorem busy?_of_ensure {extended : StationTable} (ensured : t.ensure address = .ok extended) :
    extended.busy? key = t.busy? key := by
  cases found : t.slot? key with
  | some slot =>
      apply busy?_of_slot?
      rw [slot?_of_ensure_of_some ensured found, found]
  | none =>
      have absent : t.busy? key = none := by simp [busy?, found]
      rw [absent, busy?_eq_none_iff]
      intro slot inExtended
      rcases slot?_of_ensure ensured inExtended with old | ⟨-, rfl⟩
      · rw [found] at old
        cases old
      · rfl

/-- No flow of an idle station is busy. -/
theorem busy?_of_isIdle {station : Station} (known : t.get? address = some station)
    (idle : station.isIdle = true) : t.busy? ⟨address, flow⟩ = none := by
  rw [busy?_eq_none_iff]
  intro slot found
  have inSlots : station.slots[flow.toNat]? = some slot := by
    simpa [slot?, known, Slots.get?] using found
  have member : slot ∈ station.slots.toList := by
    rw [Vector.mem_toList_iff]
    exact Vector.mem_of_getElem? inSlots
  have free := List.all_eq_true.mp idle slot member
  simpa using free

end StationTable

/-- The events of one source and flow, oldest first. -/
def EventQueue.eventsOf (key : AgreementKey) (q : EventQueue) : List Event :=
  q.toList.filter (·.key = key)

namespace Negotiation

/-- Stations have distinct addresses, and the schedule is well-formed and lists busy flows only. -/
structure Orderly (n : Negotiation) : Prop where
  distinct : n.stations.Distinct
  wellFormed : n.schedule.WellFormed
  listed : ∀ key interval, key ∈ n.schedule.entries interval → n.stations.busy? key ≠ none

/-- A flow is left alone. What waits for a flow that is not busy may go, along with its station. -/
structure Undisturbed (key : AgreementKey) (n m : Negotiation) : Prop where
  slot : m.stations.busy? key = n.stations.busy? key
  places : ∀ interval, key ∈ m.schedule.entries interval ↔ key ∈ n.schedule.entries interval
  answers : n.stations.busy? key ≠ none → m.answers.eventsOf key = n.answers.eventsOf key

/-- A change that leaves every flow alone and an orderly state behind. -/
structure Neutral (n m : Negotiation) : Prop where
  orderly : m.Orderly
  flows : ∀ key, Undisturbed key n m
  answers : ∀ answer ∈ m.answers.toList, answer ∈ n.answers.toList

/-- A change that leaves all flows but one alone and an orderly state behind. Only answers that end
a negotiation are new. -/
structure Concerns (key : AgreementKey) (n m : Negotiation) : Prop where
  orderly : m.Orderly
  others : ∀ other, other ≠ key → Undisturbed other n m
  answers : ∀ answer ∈ m.answers.toList, answer ∈ n.answers.toList ∨ verdict? answer ≠ none

variable {n m middle : Negotiation} {peer : MacAddress} {flow : UInt8} {key : AgreementKey}
  {event : Event}

theorem Undisturbed.refl (key : AgreementKey) (n : Negotiation) : Undisturbed key n n :=
  ⟨rfl, fun _ => Iff.rfl, fun _ => rfl⟩

theorem Undisturbed.trans (first : Undisturbed key n middle) (second : Undisturbed key middle m) :
    Undisturbed key n m where
  slot := second.slot.trans first.slot
  places interval := (second.places interval).trans (first.places interval)
  answers busy := by
    have stillBusy : middle.stations.busy? key ≠ none := by rwa [first.slot]
    rw [second.answers stillBusy, first.answers busy]

theorem Concerns.refl (orderly : n.Orderly) : Concerns key n n :=
  ⟨orderly, fun other _ => .refl other n, fun _ => Or.inl⟩

theorem Concerns.trans (first : Concerns key n middle) (second : Concerns key middle m) :
    Concerns key n m where
  orderly := second.orderly
  others other apart := (first.others other apart).trans (second.others other apart)
  answers answer member := by
    rcases second.answers answer member with earlier | ends
    · exact first.answers answer earlier
    · exact Or.inr ends

theorem Neutral.refl (orderly : n.Orderly) : Neutral n n :=
  ⟨orderly, fun key => .refl key n, fun _ => id⟩

theorem Neutral.trans (first : Neutral n middle) (second : Neutral middle m) : Neutral n m where
  orderly := second.orderly
  flows key := (first.flows key).trans (second.flows key)
  answers answer member := first.answers answer (second.answers answer member)

theorem Neutral.concerns (neutral : Neutral n m) : Concerns key n m :=
  ⟨neutral.orderly, fun other _ => neutral.flows other,
    fun answer member => Or.inl (neutral.answers answer member)⟩

theorem orderly_of_empty (distinct : n.stations.Distinct) (empty : n.schedule = .empty) :
    n.Orderly := by
  refine ⟨distinct, ?_, fun key interval place => ?_⟩
  · rw [empty]
    exact Schedule.wellFormed_empty
  · rw [empty] at place
    simp [Schedule.empty, Schedule.entries, Schedule.group?] at place

theorem orderly_new (settings : Settings) : (new settings).Orderly :=
  orderly_of_empty List.Pairwise.nil rfl

/-- Where no flow is disturbed, the places that are left are those of busy flows. -/
theorem orderly_of_undisturbed (orderly : n.Orderly) (distinct : m.stations.Distinct)
    (wellFormed : m.schedule.WellFormed) (undisturbed : ∀ key, Undisturbed key n m) :
    m.Orderly where
  distinct := distinct
  wellFormed := wellFormed
  listed key interval place := by
    rw [(undisturbed key).slot]
    exact orderly.listed key interval (((undisturbed key).places interval).mp place)

/-! ### Changes that concern no flow -/

/-- What stands beside busy slots, schedule and waiting answers does not matter. -/
theorem neutral_of_busy? (orderly : n.Orderly) (distinct : m.stations.Distinct)
    (sameSlots : ∀ key, m.stations.busy? key = n.stations.busy? key)
    (sameSchedule : m.schedule = n.schedule) (sameAnswers : m.answers = n.answers) :
    Neutral n m := by
  have undisturbed : ∀ key, Undisturbed key n m := by
    intro key
    refine ⟨sameSlots key, fun interval => ?_, fun _ => ?_⟩
    · rw [sameSchedule]
    · rw [sameAnswers]
  refine ⟨orderly_of_undisturbed orderly distinct ?_ undisturbed, undisturbed, ?_⟩
  · rw [sameSchedule]
    exact orderly.wellFormed
  · rw [sameAnswers]
    exact fun _ => id

theorem neutral_of_responderPart (orderly : n.Orderly)
    (same : m.responderPart = n.responderPart) : Neutral n m := by
  have sameStations : m.stations = n.stations := congrArg ResponderPart.stations same
  refine neutral_of_busy? orderly ?_ (fun _ => ?_) (congrArg ResponderPart.schedule same)
    (congrArg ResponderPart.answers same)
  · rw [sameStations]
    exact orderly.distinct
  · rw [sameStations]

/-- What is noted beside the slots of a station does not matter. -/
theorem neutral_modify {f : Station → Station} {tasks : List Task} (orderly : n.Orderly)
    (keepsAddress : ∀ station, (f station).address = station.address)
    (keepsSlots : ∀ station, (f station).slots = station.slots) :
    Neutral n { n with stations := n.stations.modify peer f, tasks } :=
  neutral_of_busy? orderly (StationTable.distinct_modify keepsAddress orderly.distinct)
    (fun _ => StationTable.busy?_of_slot?
      (StationTable.slot?_modify_of_slots keepsAddress keepsSlots)) rfl rfl

theorem neutral_ensure {stations : StationTable} (orderly : n.Orderly)
    (ensured : n.stations.ensure peer = .ok stations) : Neutral n { n with stations } :=
  neutral_of_busy? orderly (StationTable.distinct_of_ensure ensured orderly.distinct)
    (fun _ => StationTable.busy?_of_ensure ensured) rfl rfl

/-- A flow of a station that is forgotten is left alone if it is not busy. -/
theorem undisturbed_dropStation (orderly : n.Orderly)
    (spared : key.address = peer → n.stations.busy? key = none) :
    Undisturbed key n (n.dropStation peer) := by
  refine ⟨?_, fun interval => ?_, fun busy => ?_⟩
  · by_cases own : key.address = peer
    · rw [spared own, StationTable.busy?_eq_none_iff]
      intro slot found
      rw [dropStation, StationTable.slot?_remove orderly.distinct, if_pos own] at found
      cases found
    · apply StationTable.busy?_of_slot?
      rw [dropStation, StationTable.slot?_remove orderly.distinct, if_neg own]
  · rw [dropStation, Schedule.mem_entries_removeAll orderly.wellFormed]
    refine ⟨And.left, fun place => ⟨place, ?_⟩⟩
    rintro flow - rfl
    exact orderly.listed _ interval place (spared rfl)
  · have elsewhere : key.address ≠ peer := fun own => busy (spared own)
    simp only [dropStation, EventQueue.eventsOf, EventQueue.toList_purge, List.filter_filter]
    apply List.filter_congr
    intro answer _
    rw [Bool.and_eq_left_iff_imp, decide_eq_true_iff]
    rintro rfl
    rw [Bool.not_eq_true', Bool.eq_false_iff, Ne, Event.passes_some_none]
    exact elsewhere

/-- A station leaves no places behind in the schedule, whatever it was busy with. -/
theorem orderly_dropStation (orderly : n.Orderly) : (n.dropStation peer).Orderly where
  distinct := StationTable.distinct_remove orderly.distinct
  wellFormed := Schedule.wellFormed_removeAll orderly.wellFormed
  listed key interval place := by
    rw [dropStation, Schedule.mem_entries_removeAll orderly.wellFormed] at place
    obtain ⟨placed, others⟩ := place
    obtain ⟨slot, busy⟩ := Option.ne_none_iff_exists'.mp (orderly.listed key interval placed)
    have found := (StationTable.busy?_eq_some_iff.mp busy).1
    have elsewhere : key.address ≠ peer := by
      rintro rfl
      have small := StationTable.flow_lt_of_slot? found
      refine others key.flow (List.mem_map.mpr ?_) rfl
      exact ⟨key.flow.toNat, List.mem_range.mpr small, UInt8.ofNat_toNat⟩
    rw [StationTable.busy?_of_slot? (t := n.stations)]
    · exact orderly.listed key interval placed
    · rw [dropStation, StationTable.slot?_remove orderly.distinct, if_neg elsewhere]

theorem neutral_collectIdle (peer : MacAddress) (orderly : n.Orderly) :
    Neutral n (n.collectIdle peer) := by
  unfold collectIdle
  split
  case h_1 station known =>
    split
    case isTrue idle =>
      refine ⟨orderly_dropStation orderly, fun key => undisturbed_dropStation orderly ?_, ?_⟩
      · rintro rfl
        exact StationTable.busy?_of_isIdle known idle
      · exact fun answer member => (List.mem_filter.mp member).1
    case isFalse => exact .refl orderly
  case h_2 => exact .refl orderly

/-! ### Changes of one slot and its place -/

/-- A slot may be rewritten as long as a busy flow stays busy. -/
theorem concerns_modifySlot {f : Slot → Slot} (orderly : n.Orderly)
    (staysBusy : ∀ slot : Slot, slot.state ≠ .noAgreement → (f slot).state ≠ .noAgreement) :
    Concerns ⟨peer, flow⟩ n
      { n with stations := n.stations.modifySlots peer (·.modify flow f) } where
  orderly :=
    { distinct := StationTable.distinct_modifySlots orderly.distinct
      wellFormed := orderly.wellFormed
      listed := fun key interval place => by
        obtain ⟨slot, busy⟩ := Option.ne_none_iff_exists'.mp (orderly.listed key interval place)
        obtain ⟨found, notFree⟩ := StationTable.busy?_eq_some_iff.mp busy
        have moved : (n.stations.modifySlots peer (·.modify flow f)).slot? key =
            if key = ⟨peer, flow⟩ then some (f slot) else some slot := by
          rw [StationTable.slot?_modifySlots, found]
          rfl
        rw [Ne, StationTable.busy?_eq_none_iff]
        intro free
        split at moved
        · exact staysBusy slot notFree (free _ moved)
        · exact notFree (free _ moved) }
  others other apart := by
    refine ⟨StationTable.busy?_of_slot? ?_, fun _ => Iff.rfl, fun _ => rfl⟩
    rw [StationTable.slot?_modifySlots, if_neg apart]
  answers _ := Or.inl

theorem concerns_setState {state : AgreementState} (orderly : n.Orderly)
    (notFree : state ≠ .noAgreement) : Concerns ⟨peer, flow⟩ n (n.setState peer flow state) :=
  concerns_modifySlot orderly fun _ _ => notFree

/-- A flow that is taken up is busy. -/
theorem busy?_setState {slot : Slot} {state : AgreementState}
    (found : n.stations.slot? ⟨peer, flow⟩ = some slot) (notFree : state ≠ .noAgreement) :
    (n.setState peer flow state).stations.busy? ⟨peer, flow⟩ ≠ none := by
  rw [Ne, StationTable.busy?_eq_none_iff]
  intro free
  refine notFree (free { slot with state } ?_)
  rw [setState, StationTable.slot?_setState, if_pos rfl, found]
  rfl

theorem concerns_setAgreement (peer : MacAddress) (flow : UInt8) (agreement : Option Agreement)
    (orderly : n.Orderly) :
    Concerns ⟨peer, flow⟩ n
      { n with stations := n.stations.modifySlots peer (·.setAgreement flow agreement) } :=
  concerns_modifySlot orderly fun _ notFree => notFree

/-- A flow gives up what it has. -/
theorem concerns_withdraw (peer : MacAddress) (flow : UInt8) (orderly : n.Orderly) :
    Concerns ⟨peer, flow⟩ n { n.setState peer flow .noAgreement with
      schedule := n.schedule.remove ⟨peer, flow⟩
      stations := (n.setState peer flow .noAgreement).stations.modifySlots peer
        (·.setAgreement flow none) } where
  orderly :=
    { distinct := StationTable.distinct_modifySlots
        (StationTable.distinct_modifySlots orderly.distinct)
      wellFormed := Schedule.wellFormed_remove orderly.wellFormed
      listed := fun key interval place => by
        obtain ⟨placed, apart⟩ := (Schedule.mem_entries_remove orderly.wellFormed).mp place
        rw [StationTable.busy?_of_slot? (t := n.stations)]
        · exact orderly.listed key interval placed
        · rw [StationTable.slot?_setAgreement, if_neg apart, setState,
            StationTable.slot?_setState, if_neg apart] }
  others other apart := by
    refine ⟨StationTable.busy?_of_slot? ?_, fun interval => ?_, fun _ => rfl⟩
    · rw [StationTable.slot?_setAgreement, if_neg apart, setState, StationTable.slot?_setState,
        if_neg apart]
    · rw [Schedule.mem_entries_remove orderly.wellFormed]
      exact and_iff_left apart
  answers _ := Or.inl

/-- A busy flow gets a place. -/
theorem concerns_granted {a scheduled : Agreement} {command : SetupCommand}
    {lookup : AgreementKey → Option ServicePeriod} {schedule : Schedule} (orderly : n.Orderly)
    (busy : n.stations.busy? key ≠ none)
    (granted : n.schedule.schedule key a command lookup = (.ok scheduled, schedule)) :
    Concerns key n { n with schedule } where
  orderly :=
    { distinct := orderly.distinct
      wellFormed := Schedule.wellFormed_schedule orderly.wellFormed granted
      listed := fun other interval place => by
        rw [Schedule.mem_entries_schedule orderly.wellFormed granted] at place
        split at place
        case isTrue same => rwa [same]
        case isFalse => exact orderly.listed other interval place }
  others other apart := by
    refine ⟨rfl, fun interval => ?_, fun _ => rfl⟩
    rw [Schedule.mem_entries_schedule orderly.wellFormed granted, if_neg apart]
  answers _ := Or.inl

/-- A flow that finds no place may lose the one that it had. -/
theorem concerns_refused {a : Agreement} {command : SetupCommand} {error : Error}
    {lookup : AgreementKey → Option ServicePeriod} {schedule : Schedule} (orderly : n.Orderly)
    (refused : n.schedule.schedule key a command lookup = (.error error, schedule)) :
    Concerns key n { n with schedule } := by
  rcases Schedule.schedule_error refused with rfl | rfl
  · exact .refl orderly
  · have fewer : ∀ other interval, other ∈ (n.schedule.remove key).entries interval ↔
        other ∈ n.schedule.entries interval ∧ other ≠ key :=
      fun other interval => Schedule.mem_entries_remove orderly.wellFormed
    refine ⟨⟨orderly.distinct, Schedule.wellFormed_remove orderly.wellFormed, ?_⟩, ?_, ?_⟩
    · intro other interval place
      exact orderly.listed other interval ((fewer other interval).mp place).1
    · intro other apart
      refine ⟨rfl, fun interval => ?_, fun _ => rfl⟩
      exact (fewer other interval).trans (and_iff_left apart)
    · exact fun _ => Or.inl

/-! ### Ends of a negotiation -/

theorem concerns_conclude {conclusion : Conclusion} (orderly : n.Orderly) :
    Concerns event.key n (n.conclude event conclusion) := by
  unfold conclude
  split
  · exact .refl orderly
  · cases conclusion
    case established =>
      have agreed : Concerns event.key n (n.setState event.source event.flow .agreement) :=
        concerns_setState orderly (by simp)
      cases event.agreement? with
      | none => exact agreed
      | some agreement => exact agreed.trans (concerns_setAgreement _ _ _ agreed.orderly)
    case cleared =>
      have withdrawn := concerns_withdraw event.source event.flow orderly
      exact withdrawn.trans (neutral_collectIdle event.source withdrawn.orderly).concerns

/-- The flow of a negotiation that ended is in agreement if it was established, and else not
busy. -/
theorem busy?_conclude {conclusion : Conclusion} {slot : Slot} (orderly : n.Orderly)
    (busy : (n.conclude event conclusion).stations.busy? event.key = some slot) :
    conclusion = .established ∧ slot.state = .agreement := by
  unfold conclude at busy
  split at busy
  case h_1 absent =>
    have found := (StationTable.busy?_eq_some_iff.mp busy).1
    rw [Event.key, absent] at found
    cases found
  case h_2 =>
    have own : event.key = ⟨event.source, event.flow⟩ := rfl
    cases conclusion
    case established =>
      refine ⟨rfl, ?_⟩
      cases carried : event.agreement? with
      | none =>
          simp only [carried] at busy
          have found := (StationTable.busy?_eq_some_iff.mp busy).1
          rw [setState, StationTable.slot?_setState, if_pos own] at found
          obtain ⟨old, -, rfl⟩ := Option.map_eq_some_iff.mp found
          rfl
      | some agreement =>
          simp only [carried] at busy
          have found := (StationTable.busy?_eq_some_iff.mp busy).1
          rw [StationTable.slot?_setAgreement, if_pos own, setState, StationTable.slot?_setState,
            if_pos own] at found
          obtain ⟨-, -, rfl⟩ := by simpa using found
          rfl
    case cleared =>
      have withdrawn := (concerns_withdraw event.source event.flow orderly).orderly
      have collected := (neutral_collectIdle event.source withdrawn).flows event.key
      obtain ⟨found, notFree⟩ := StationTable.busy?_eq_some_iff.mp (collected.slot.symm.trans busy)
      rw [StationTable.slot?_setAgreement, if_pos own, setState, StationTable.slot?_setState,
        if_pos own] at found
      obtain ⟨-, -, rfl⟩ := by simpa using found
      exact absurd rfl notFree

/-! ### Answers -/

theorem concerns_push {answer : Event} (orderly : n.Orderly) (ends : verdict? answer ≠ none) :
    Concerns answer.key n { n with answers := n.answers.push answer } where
  orderly := ⟨orderly.distinct, orderly.wellFormed, orderly.listed⟩
  others other apart := by
    refine ⟨rfl, fun _ => Iff.rfl, fun _ => ?_⟩
    simp [EventQueue.eventsOf, List.filter_append, Ne.symm apart]
  answers other member := by
    rw [EventQueue.toList_push, List.mem_append, List.mem_singleton] at member
    rcases member with earlier | rfl
    · exact Or.inl earlier
    · exact Or.inr ends

theorem concerns_respond (answer : Event) {conclusion : Option Conclusion} (orderly : n.Orderly)
    (ends : verdict? answer ≠ none) : Concerns answer.key n (n.respond answer conclusion) := by
  have response := responded answer conclusion n
  generalize n.respond answer conclusion = m at response ⊢
  have left (tasks : List Task) :
      Neutral n { n with stations := n.stations.withoutNote answer.source, tasks } :=
    neutral_modify orderly (fun _ => rfl) (fun _ => rfl)
  cases response with
  | unknown => exact .refl orderly
  | waiting => exact concerns_push orderly ends
  | @left _ tasks => exact (left tasks).concerns
  | @concluded _ tasks => exact (left tasks).concerns.trans (concerns_conclude (left tasks).orderly)

theorem concerns_reject {agreement : Agreement} (orderly : n.Orderly) :
    Concerns ⟨peer, flow⟩ n (n.reject peer flow agreement) :=
  concerns_respond ⟨peer, flow, .setup .reject (agreement.withCommand .reject)⟩ orderly
    (by simp [verdict?])

theorem concerns_accept {command : SetupCommand} {agreement : Agreement} (orderly : n.Orderly)
    (busy : n.stations.busy? ⟨peer, flow⟩ ≠ none) :
    Concerns ⟨peer, flow⟩ n (n.accept peer flow command agreement) := by
  rw [accept_eq]
  dsimp only
  split
  case h_1 refused =>
    have lost := concerns_refused orderly refused
    exact lost.trans (concerns_reject lost.orderly)
  case h_2 scheduled schedule granted =>
    have placed := concerns_granted orderly busy granted
    have held := placed.trans (concerns_setAgreement peer flow
      (some (scheduled.withCommand .accept).updateParameters) placed.orderly)
    exact held.trans (concerns_respond ⟨peer, flow, .setup .accept
      (scheduled.withCommand .accept).updateParameters⟩ held.orderly (by simp [verdict?]))

/-! ### Events -/

theorem concerns_consider {command : SetupCommand} {agreement : Agreement} (orderly : n.Orderly) :
    Concerns ⟨peer, flow⟩ n (n.consider peer flow command agreement) := by
  unfold consider
  split
  · exact .refl orderly
  case h_2 slot found =>
    have opened (state : AgreementState) (notFree : state ≠ .noAgreement) :
        Concerns ⟨peer, flow⟩ n (n.setState peer flow state) :=
      concerns_setState orderly notFree
    cases command
    case request | suggest =>
      exact (opened _ (by simp)).trans
        (concerns_accept (opened _ (by simp)).orderly (busy?_setState found (by simp)))
    case demand | grouping =>
      exact (opened _ (by simp)).trans (concerns_reject (opened _ (by simp)).orderly)
    all_goals exact .refl orderly

theorem concerns_answerRequest {command : SetupCommand} {agreement : Agreement}
    {state : AgreementState} (orderly : n.Orderly) :
    Concerns ⟨peer, flow⟩ n (n.answerRequest peer flow command agreement state) := by
  unfold answerRequest
  split
  · exact concerns_consider orderly
  case h_6 =>
    split
    · exact .refl orderly
    · exact concerns_reject orderly
  all_goals exact .refl orderly

theorem concerns_handleTeardown (orderly : n.Orderly) :
    Concerns event.key n (n.handleTeardown event) := by
  unfold handleTeardown
  split
  · exact (neutral_of_responderPart orderly (responderPart_handleOwnTeardown event n)).concerns
  · split
    · split
      · exact .refl orderly
      · exact .refl orderly
      · exact concerns_conclude orderly
    · exact .refl orderly

/-- The handling of an event concerns the flow of the event only. -/
theorem concerns_handleEvent (orderly : n.Orderly) (event : Event) :
    Concerns event.key n (n.handleEvent event).1 := by
  unfold handleEvent
  split
  · exact concerns_handleTeardown orderly
  case h_2 command agreement _ =>
    split
    · split
      · split
        · exact .refl orderly
        case h_2 stations ensured =>
          have extended := neutral_ensure orderly ensured
          exact extended.concerns.trans (concerns_answerRequest extended.orderly)
      · exact .refl orderly
    · split
      · exact (neutral_of_responderPart orderly
          (responderPart_handleAnswer event command n)).concerns
      · exact .refl orderly

theorem orderly_handleAll (events : List Event) (orderly : n.Orderly) :
    (handleAll events n).1.Orderly :=
  holds_handleAll Orderly (fun event _ _ orderly => (concerns_handleEvent orderly event).orderly)
    orderly

/-- A flow that no event of a batch is about is left alone. -/
theorem undisturbed_handleAll {events : List Event} (orderly : n.Orderly)
    (elsewhere : ∀ event ∈ events, event.key ≠ key) :
    Undisturbed key n (handleAll events n).1 := by
  induction events generalizing n with
  | nil => exact .refl key n
  | cons event rest inductionHypothesis =>
      have first := concerns_handleEvent orderly event
      have here := first.others key (Ne.symm (elsewhere event List.mem_cons_self))
      exact here.trans (inductionHypothesis first.orderly fun later member =>
        elsewhere later (List.mem_cons_of_mem _ member))

/-! ### Operations -/

/-- The oldest answer that waits for a station leaves. -/
theorem concerns_withoutAnswer {answer : Event} (orderly : n.Orderly)
    (first : n.answers.peek? (some peer) none = some answer) :
    Concerns answer.key n (n.withoutAnswer peer) where
  orderly := ⟨orderly.distinct, orderly.wellFormed, orderly.listed⟩
  others other apart := by
    refine ⟨rfl, fun _ => Iff.rfl, fun _ => ?_⟩
    obtain ⟨before, after, split, rest⟩ := EventQueue.exists_split_of_peek? first
    rw [withoutAnswer, EventQueue.eventsOf, EventQueue.eventsOf, rest, split]
    simp [Ne.symm apart]
  answers _ member := Or.inl (List.mem_of_mem_eraseP member)

/-- The oldest answer leaves, and its negotiation ends. -/
theorem concerns_answered {answer : Event} (orderly : n.Orderly)
    (first : n.answers.peek? (some peer) none = some answer) (conclusion : Conclusion) :
    Concerns answer.key n ((n.withoutAnswer peer).conclude answer conclusion) :=
  have left := concerns_withoutAnswer orderly first
  left.trans (concerns_conclude left.orderly)

theorem orderly_takeAnswer (orderly : n.Orderly) : (n.takeAnswer peer).2.Orderly := by
  have taken := answerTaken peer n
  generalize n.takeAnswer peer = result at taken ⊢
  cases taken with
  | nothing => exact orderly
  | established first => exact (concerns_answered orderly first .established).orderly
  | cleared first => exact (concerns_answered orderly first .cleared).orderly
  | kept first => exact (concerns_withoutAnswer orderly first).orderly
  | refused first => exact (concerns_withoutAnswer orderly first).orderly

theorem orderly_handleEvents (orderly : n.Orderly) (source : Option MacAddress) :
    (n.handleEvents source).Orderly := by
  obtain ⟨events, tasks, handled⟩ := handleEvents_eq source n
  have opened : (n.opened source).Orderly :=
    ⟨orderly.distinct, orderly.wellFormed, orderly.listed⟩
  have all := orderly_handleAll (n.due source) opened
  rw [handled]
  exact ⟨all.distinct, all.wellFormed, all.listed⟩

/-- What an operation means to the flows: nothing, or one of the things that need a closer look. -/
inductive Change (n : Negotiation) : Operation → Negotiation → Prop where
  | neutral {operation : Operation} {m : Negotiation} (neutral : Neutral n m) :
      Change n operation m
  | handled (source : Option MacAddress) : Change n (.handleEvents source) (n.handleEvents source)
  | taken {operation : Operation} {peer : MacAddress}
      (takes : operation.takesAnswerFor? = some peer) : Change n operation (n.takeAnswer peer).2
  | forgotten {m : Negotiation} (peer : MacAddress)
      (same : m.responderPart = (n.dropStation peer).responderPart) :
      Change n (.removeStation peer) m
  | cleared : Change n .clear n.clear

theorem change_apply (orderly : n.Orderly) (operation : Operation) :
    Change n operation (operation.apply n) := by
  have queued (event : Event) : Neutral n (n.queueEvent event) :=
    neutral_of_busy? orderly orderly.distinct (fun _ => rfl) rfl rfl
  have result := applied n operation
  generalize operation.apply n = m at result ⊢
  cases result with
  | untouched same => exact .neutral (neutral_of_responderPart orderly same)
  | @queued _ _ event _ same =>
      exact .neutral ((queued event).trans (neutral_of_responderPart (queued event).orderly same))
  | @noted _ event source token _ stations _ ensured same =>
      have extended := (queued event).trans (neutral_ensure (queued event).orderly ensured)
      have withNote : Neutral { n.queueEvent event with stations } { n.queueEvent event with
          stations := stations.modify source
            ({ · with dialogToken := token, actionPending := true }) } :=
        neutral_modify extended.orderly (fun _ => rfl) (fun _ => rfl)
      exact .neutral ((extended.trans withNote).trans
        (neutral_of_responderPart withNote.orderly same))
  | handled source => exact .handled source
  | taken takes => exact .taken takes
  | forgotten peer same => exact .forgotten peer same
  | purged => exact .neutral (neutral_of_busy? orderly orderly.distinct (fun _ => rfl) rfl rfl)
  | cleared => exact .cleared

/-- Every operation leaves an orderly state behind. -/
theorem orderly_apply (orderly : n.Orderly) (operation : Operation) :
    (operation.apply n).Orderly := by
  have change := change_apply orderly operation
  generalize operation.apply n = m at change ⊢
  cases change with
  | neutral neutral => exact neutral.orderly
  | handled source => exact orderly_handleEvents orderly source
  | taken => exact orderly_takeAnswer orderly
  | forgotten peer same =>
      exact (neutral_of_responderPart (orderly_dropStation orderly) same).orderly
  | cleared => exact orderly_of_empty List.Pairwise.nil rfl

theorem orderly_reached (settings : Settings) (operations : List Operation) :
    ∀ n ∈ reached (new settings) operations, n.Orderly :=
  invariant_of_apply Orderly (fun _ operation orderly => orderly_apply orderly operation)
    (orderly_new settings)

end Negotiation

end TargetWakeTime
