import TargetWakeTime.Negotiation.Report
import TargetWakeTime.Proofs.Negotiation.Departure
import TargetWakeTime.Proofs.Schedule.Lookup

/-!
Contract: every key of the schedule resolves.

Owns:
- backed flows, which hold an agreement as long as they have a place in the schedule, and the
  preservation of backed states by every operation;
- the capacity of the station table, which no operation changes;
- what follows of it: accepting a request meets no member without agreement, and the report of the
  schedule passes over none.

Nothing is assumed about where events come from. A flow without slot gets no place, because it is not
taken up; one that gives up its agreement, alone or with its station, gives up its place with it.
-/

namespace TargetWakeTime.Negotiation

/-- If the flow has a place in the schedule, it holds an agreement. -/
def Backed (key : AgreementKey) (n : Negotiation) : Prop :=
  ∀ interval, key ∈ n.schedule.entries interval → ∃ a, n.stations.agreement? key = some a

structure AllBacked (n : Negotiation) : Prop where
  orderly : n.Orderly
  backed : ∀ key, Backed key n

variable {n m : Negotiation} {peer : MacAddress} {flow : UInt8} {key : AgreementKey} {event : Event}

/-- A busy flow that is left alone keeps its place and its agreement. -/
theorem Backed.of_undisturbed (backed : Backed key n) (orderly : n.Orderly)
    (undisturbed : Undisturbed key n m) : Backed key m := by
  intro interval place
  have placed := (undisturbed.places interval).mp place
  obtain ⟨slot, busy⟩ := Option.ne_none_iff_exists'.mp (orderly.listed key interval placed)
  obtain ⟨a, held⟩ := backed interval placed
  have found := (StationTable.busy?_eq_some_iff.mp busy).1
  have stays := (StationTable.busy?_eq_some_iff.mp (undisturbed.slot.trans busy)).1
  refine ⟨a, ?_⟩
  rw [StationTable.agreement?, stays]
  rwa [StationTable.agreement?, found] at held

/-- A change that concerns a single flow only has to see to that flow. -/
theorem AllBacked.of_concerns (allBacked : AllBacked n) (concerns : Concerns key n m)
    (backed : Backed key m) : AllBacked m where
  orderly := concerns.orderly
  backed other := by
    by_cases own : other = key
    · rw [own]
      exact backed
    · exact (allBacked.backed other).of_undisturbed allBacked.orderly (concerns.others other own)

theorem AllBacked.of_neutral (allBacked : AllBacked n) (neutral : Neutral n m) : AllBacked m where
  orderly := neutral.orderly
  backed key := (allBacked.backed key).of_undisturbed allBacked.orderly (neutral.flows key)

/-! ### Answers -/

/-- What state a flow is in does not matter. -/
theorem backed_setState {state : AgreementState} (backed : Backed key n) :
    Backed key (n.setState peer flow state) := by
  intro interval place
  rw [setState, StationTable.agreement?_setState]
  exact backed interval place

/-- A flow that has a slot is backed as soon as an agreement is put into it. -/
theorem backed_setAgreement {slot : Slot} (found : n.stations.slot? ⟨peer, flow⟩ = some slot)
    (agreement : Agreement) : Backed ⟨peer, flow⟩
      { n with
        stations := n.stations.modifySlots peer (·.setAgreement flow (some agreement)) } := by
  intro interval _
  refine ⟨agreement, ?_⟩
  rw [StationTable.agreement?_setAgreement, if_pos rfl, found]
  rfl

theorem backed_conclude {conclusion : Conclusion} (orderly : n.Orderly)
    (backed : Backed event.key n) : Backed event.key (n.conclude event conclusion) := by
  unfold conclude
  split
  · exact backed
  case h_2 slot found =>
    cases conclusion
    case established =>
      cases event.agreement? with
      | none => exact backed_setState backed
      | some agreement =>
          have agreed : (n.setState event.source event.flow .agreement).stations.slot?
              ⟨event.source, event.flow⟩ = some { slot with state := .agreement } := by
            rw [setState, StationTable.slot?_setState, if_pos rfl, found]
            rfl
          exact backed_setAgreement agreed agreement
    case cleared =>
      have withdrawn := concerns_withdraw event.source event.flow orderly
      have collected := neutral_collectIdle event.source withdrawn.orderly
      intro interval place
      have left := ((collected.flows event.key).places interval).mp place
      exact absurd rfl ((Schedule.mem_entries_remove orderly.wellFormed).mp left).2

theorem backed_respond (answer : Event) {conclusion : Option Conclusion} (orderly : n.Orderly)
    (backed : Backed answer.key n) : Backed answer.key (n.respond answer conclusion) := by
  have response := responded answer conclusion n
  generalize n.respond answer conclusion = m at response ⊢
  have left (tasks : List Task) :
      Neutral n { n with stations := n.stations.withoutNote answer.source, tasks } :=
    neutral_modify orderly (fun _ => rfl) (fun _ => rfl)
  cases response with
  | unknown => exact backed
  | waiting => exact backed
  | @left _ tasks => exact backed.of_undisturbed orderly ((left tasks).flows _)
  | @concluded _ tasks =>
      exact backed_conclude (left tasks).orderly
        (backed.of_undisturbed orderly ((left tasks).flows _))

theorem backed_reject {agreement : Agreement} (orderly : n.Orderly)
    (backed : Backed ⟨peer, flow⟩ n) : Backed ⟨peer, flow⟩ (n.reject peer flow agreement) :=
  backed_respond ⟨peer, flow, .setup .reject (agreement.withCommand .reject)⟩ orderly backed

/-- A flow that is accepted gets its place and its agreement together. -/
theorem backed_accept {command : SetupCommand} {agreement : Agreement} (orderly : n.Orderly)
    (busy : n.stations.busy? ⟨peer, flow⟩ ≠ none) (backed : Backed ⟨peer, flow⟩ n) :
    Backed ⟨peer, flow⟩ (n.accept peer flow command agreement) := by
  rw [accept_eq]
  dsimp only
  split
  case h_1 error schedule refused =>
    refine backed_reject (concerns_refused orderly refused).orderly fun interval place => ?_
    rcases Schedule.schedule_error refused with rfl | rfl
    · exact backed interval place
    · exact backed interval ((Schedule.mem_entries_remove orderly.wellFormed).mp place).1
  case h_2 scheduled schedule granted =>
    have placed := concerns_granted orderly busy granted
    have held := concerns_setAgreement peer flow
      (some (scheduled.withCommand .accept).updateParameters) placed.orderly
    obtain ⟨slot, isBusy⟩ := Option.ne_none_iff_exists'.mp busy
    have found := (StationTable.busy?_eq_some_iff.mp isBusy).1
    exact backed_respond ⟨peer, flow, .setup .accept
      (scheduled.withCommand .accept).updateParameters⟩ held.orderly
      (backed_setAgreement (n := { n with schedule }) found _)

/-! ### Events -/

theorem backed_consider {command : SetupCommand} {agreement : Agreement} (orderly : n.Orderly)
    (backed : Backed ⟨peer, flow⟩ n) :
    Backed ⟨peer, flow⟩ (n.consider peer flow command agreement) := by
  unfold consider
  split
  · exact backed
  case h_2 slot found =>
    have opened (state : AgreementState) (notFree : state ≠ .noAgreement) :
        (n.setState peer flow state).Orderly :=
      (concerns_setState orderly notFree).orderly
    cases command
    case request | suggest =>
      exact backed_accept (opened _ (by simp)) (busy?_setState found (by simp))
        (backed_setState backed)
    case demand | grouping => exact backed_reject (opened _ (by simp)) (backed_setState backed)
    all_goals exact backed

theorem backed_answerRequest {command : SetupCommand} {agreement : Agreement}
    {state : AgreementState} (orderly : n.Orderly) (backed : Backed ⟨peer, flow⟩ n) :
    Backed ⟨peer, flow⟩ (n.answerRequest peer flow command agreement state) := by
  unfold answerRequest
  split
  · exact backed_consider orderly backed
  case h_6 =>
    split
    · exact backed
    · exact backed_reject orderly backed
  all_goals exact backed

theorem AllBacked.backed_handleTeardown (allBacked : AllBacked n) :
    Backed event.key (n.handleTeardown event) := by
  unfold handleTeardown
  split
  · have own := neutral_of_responderPart allBacked.orderly (responderPart_handleOwnTeardown event n)
    exact (allBacked.of_neutral own).backed event.key
  · split
    · split
      · exact allBacked.backed _
      · exact allBacked.backed _
      · exact backed_conclude allBacked.orderly (allBacked.backed _)
    · exact allBacked.backed _

theorem allBacked_handleEvent (allBacked : AllBacked n) (event : Event) :
    AllBacked (n.handleEvent event).1 := by
  refine allBacked.of_concerns (concerns_handleEvent allBacked.orderly event) ?_
  unfold handleEvent
  split
  · exact allBacked.backed_handleTeardown
  case h_2 command agreement _ =>
    split
    · split
      · split
        · exact allBacked.backed _
        case h_2 stations ensured =>
          have extended := allBacked.of_neutral (neutral_ensure allBacked.orderly ensured)
          exact backed_answerRequest extended.orderly (extended.backed _)
      · exact allBacked.backed _
    · split
      · have own := neutral_of_responderPart allBacked.orderly
          (responderPart_handleAnswer event command n)
        exact (allBacked.of_neutral own).backed event.key
      · exact allBacked.backed _

/-! ### Operations -/

theorem allBacked_opened (allBacked : AllBacked n) (source : Option MacAddress) :
    AllBacked (n.opened source) :=
  allBacked.of_neutral
    (neutral_of_busy? allBacked.orderly allBacked.orderly.distinct (fun _ => rfl) rfl rfl)

theorem allBacked_handleEvents (allBacked : AllBacked n) (source : Option MacAddress) :
    AllBacked (n.handleEvents source) := by
  obtain ⟨events, tasks, handled⟩ := handleEvents_eq source n
  have all : AllBacked (handleAll (n.due source) (n.opened source)).1 :=
    holds_handleAll AllBacked (fun event _ _ kept => allBacked_handleEvent kept event)
      (allBacked_opened allBacked source)
  rw [handled]
  exact all.of_neutral (neutral_of_busy? all.orderly all.orderly.distinct (fun _ => rfl) rfl rfl)

theorem allBacked_takeAnswer (allBacked : AllBacked n) (peer : MacAddress) :
    AllBacked (n.takeAnswer peer).2 := by
  have taken := answerTaken peer n
  generalize n.takeAnswer peer = result at taken ⊢
  have left {answer : Event} (first : n.answers.peek? (some peer) none = some answer) :
      AllBacked (n.withoutAnswer peer) :=
    allBacked.of_concerns (concerns_withoutAnswer allBacked.orderly first)
      (allBacked.backed answer.key)
  have concluded {answer : Event} (conclusion : Conclusion)
      (first : n.answers.peek? (some peer) none = some answer) :
      AllBacked ((n.withoutAnswer peer).conclude answer conclusion) :=
    (left first).of_concerns (concerns_conclude (left first).orderly)
      (backed_conclude (left first).orderly ((left first).backed answer.key))
  cases taken with
  | nothing => exact allBacked
  | established first => exact concluded .established first
  | cleared first => exact concluded .cleared first
  | kept first => exact left first
  | refused first => exact left first

theorem allBacked_dropStation (allBacked : AllBacked n) (peer : MacAddress) :
    AllBacked (n.dropStation peer) where
  orderly := orderly_dropStation allBacked.orderly
  backed key := by
    by_cases own : key.address = peer
    · intro interval place
      have busy := (orderly_dropStation allBacked.orderly).listed key interval place
      refine absurd ?_ busy
      rw [StationTable.busy?_eq_none_iff]
      intro slot found
      rw [dropStation, StationTable.slot?_remove allBacked.orderly.distinct, if_pos own] at found
      cases found
    · exact (allBacked.backed key).of_undisturbed allBacked.orderly
        (undisturbed_dropStation allBacked.orderly fun same => absurd same own)

theorem allBacked_of_empty (distinct : n.stations.Distinct) (empty : n.schedule = .empty) :
    AllBacked n where
  orderly := orderly_of_empty distinct empty
  backed key interval place := by
    rw [empty] at place
    simp [Schedule.empty, Schedule.entries, Schedule.group?] at place

/-- Every operation leaves all flows backed. -/
theorem allBacked_apply (allBacked : AllBacked n) (operation : Operation) :
    AllBacked (operation.apply n) := by
  have change := change_apply allBacked.orderly operation
  generalize operation.apply n = m at change ⊢
  cases change with
  | neutral neutral => exact allBacked.of_neutral neutral
  | handled source => exact allBacked_handleEvents allBacked source
  | @taken _ peer => exact allBacked_takeAnswer allBacked peer
  | forgotten peer same =>
      have dropped := allBacked_dropStation allBacked peer
      exact dropped.of_neutral (neutral_of_responderPart dropped.orderly same)
  | cleared => exact allBacked_of_empty List.Pairwise.nil rfl

theorem capacity_takeAnswer (peer : MacAddress) (n : Negotiation) :
    (n.takeAnswer peer).2.stations.capacity = n.stations.capacity := by
  have taken := answerTaken peer n
  generalize n.takeAnswer peer = result at taken ⊢
  cases taken with
  | nothing => rfl
  | established | cleared => exact capacity_conclude ..
  | kept => rfl
  | refused => rfl

/-- No operation changes how many stations there is space for. -/
theorem capacity_apply (operation : Operation) (n : Negotiation) :
    (operation.apply n).stations.capacity = n.stations.capacity := by
  have result := applied n operation
  generalize operation.apply n = m at result ⊢
  cases result with
  | untouched same | queued _ same =>
      rw [show m.stations = n.stations from congrArg ResponderPart.stations same]
  | @noted _ _ source token _ stations _ ensured same =>
      rw [show m.stations = stations.modify source _ from congrArg ResponderPart.stations same]
      change stations.capacity = n.stations.capacity
      exact capacity_of_ensure ensured
  | handled source =>
      obtain ⟨events, tasks, handled⟩ := handleEvents_eq source n
      rw [handled]
      exact holds_handleAll (fun m => m.stations.capacity = n.stations.capacity)
        (fun event _ m kept => (capacity_handleEvent event m).trans kept) rfl
  | taken => exact capacity_takeAnswer ..
  | forgotten peer same =>
      rw [show m.stations = n.stations.remove peer from congrArg ResponderPart.stations same]
      rfl
  | purged => rfl
  | cleared => rfl

/-! ### What backed states are good for -/

theorem AllBacked.exists_agreement (allBacked : AllBacked n) {group : Schedule.Group}
    (filed : group ∈ n.schedule.groups) (member : key ∈ group.entries) :
    ∃ a, n.stations.agreement? key = some a :=
  allBacked.backed key group.interval (by
    rwa [Schedule.entries_of_mem allBacked.orderly.wellFormed filed])

/-- The station of a key in the schedule is known, and the slot of its flow holds an agreement. -/
theorem AllBacked.exists_station (allBacked : AllBacked n) {group : Schedule.Group}
    (filed : group ∈ n.schedule.groups) (member : key ∈ group.entries) :
    key.flow.toNat < 8 ∧ ∃ station ∈ n.stations.stations, station.address = key.address ∧
      ∃ slot, station.slots.get? key.flow = some slot ∧ slot.agreement.isSome := by
  obtain ⟨a, held⟩ := allBacked.exists_agreement filed member
  obtain ⟨slot, found, holds⟩ := StationTable.exists_slot_of_agreement? held
  obtain ⟨station, known, inSlots⟩ := Option.bind_eq_some_iff.mp found
  exact ⟨StationTable.flow_lt_of_slot? found, station, List.mem_of_find?_eq_some known,
    StationTable.address_of_get? known, slot, inSlots, by rw [holds]; rfl⟩

/-- Where all flows are backed, scheduling finds the timing of every member. -/
theorem schedule_resolves {missing : AgreementKey} {a : Agreement} {command : SetupCommand}
    (wellFormed : n.schedule.WellFormed) (backed : ∀ key, Backed key n) :
    (n.schedule.schedule key a command n.stations.servicePeriod?).1 ≠
      .error (.invalidParameter (.unresolvedKey missing)) := by
  refine Schedule.schedule_ne_unresolved fun member held => ?_
  have place := ((Schedule.mem_entries_remove wellFormed).mp held).1
  obtain ⟨agreement, holds⟩ := backed member a.wakeInterval place
  exact ⟨.ofAgreement agreement, by rw [StationTable.servicePeriod?, holds]; rfl⟩

/-- In every state of every run, whatever events are queued, addresses are distinct, no more stations
are known than the settings allow, and each key of the schedule names a known station and one of its
flows, which holds an agreement. The report of the schedule therefore has exactly one line for each
group and one for each member, and wherever a request is handled, scheduling the flow that was taken
up does not fail for a member without agreement. -/
theorem scheduledKeys_resolve (settings : Settings) (operations : List Operation) :
    (∀ n ∈ reached (new settings) operations,
      (n.stations.stations.map (·.address)).Nodup ∧
      n.stations.size ≤ settings.maximumStations ∧
      (∀ group ∈ n.schedule.groups, ∀ key ∈ group.entries,
        key.flow.toNat < 8 ∧ ∃ station ∈ n.stations.stations, station.address = key.address ∧
          ∃ slot, station.slots.get? key.flow = some slot ∧ slot.agreement.isSome) ∧
      n.scheduleReport.toList.count '\n' =
        n.schedule.groups.length + (n.schedule.groups.flatMap (·.entries)).length) ∧
    ∀ step ∈ steps (new settings) operations, ∀ handling ∈ step.2.handlings step.1,
      ∀ stations, handling.2.stations.ensure handling.1.source = .ok stations →
        ∀ state agreement command missing,
          let n := { handling.2 with stations }.setState handling.1.source handling.1.flow state
          (n.schedule.schedule handling.1.key agreement command n.stations.servicePeriod?).1 ≠
            .error (.invalidParameter (.unresolvedKey missing)) := by
  have invariant : ∀ n ∈ reached (new settings) operations,
      AllBacked n ∧ n.stations.Within ∧ n.stations.capacity = settings.maximumStations :=
    invariant_of_apply
      (fun n => AllBacked n ∧ n.stations.Within ∧ n.stations.capacity = settings.maximumStations)
      (fun n operation ⟨allBacked, within, capacity⟩ =>
        ⟨allBacked_apply allBacked operation,
          within_apply allBacked.orderly.distinct within operation,
          (capacity_apply operation n).trans capacity⟩)
      ⟨allBacked_of_empty List.Pairwise.nil rfl, Nat.zero_le _, rfl⟩
  constructor
  · intro n member
    obtain ⟨allBacked, within, capacity⟩ := invariant n member
    exact ⟨allBacked.orderly.distinct, capacity ▸ within,
      fun group filed key member => allBacked.exists_station filed member,
      count_scheduleReport fun group filed key member =>
        Option.isSome_iff_exists.mpr (allBacked.exists_agreement filed member)⟩
  · rintro ⟨n, operation⟩ stepTaken ⟨event, m⟩ handled stations ensured state agreement command
      missing
    have start := (invariant n (Runs.mem_of_mem_steps stepTaken).1).1
    have taken : AllBacked m := by
      cases operation with
      | handleEvents source =>
          exact invariant_of_handleEvent AllBacked
            (fun n event allBacked => allBacked_handleEvent allBacked event)
            (allBacked_opened start source) (event, m) handled
      | _ => cases handled
    have extended := taken.of_neutral (neutral_ensure taken.orderly ensured)
    exact schedule_resolves extended.orderly.wellFormed
      fun key => backed_setState (extended.backed key)

end TargetWakeTime.Negotiation
