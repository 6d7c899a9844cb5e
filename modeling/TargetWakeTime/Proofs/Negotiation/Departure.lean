import TargetWakeTime.Proofs.Negotiation.Recency
import TargetWakeTime.Proofs.Negotiation.Transitions

/-!
Contract: what is left of a station that leaves.

Owns:
- the size of the station table, which is never beyond its capacity;
- what a leaving station takes along: its place in the table, its places in the schedule, and the
  answers that wait for it;
- what it leaves behind: its events stay queued, and a request among them lets it in again, into the
  place that it gave up, without a further frame of it;
- that a station is forgotten exactly if none of its events was queued, and stays away exactly if
  none of those was a request.
-/

namespace TargetWakeTime

namespace StationTable

variable {t s : StationTable} {peer other : MacAddress}

/-! ### Size -/

/-- No more stations are known than there are places for. -/
def Within (t : StationTable) : Prop := t.size ≤ t.capacity

theorem contains_iff : t.contains peer = true ↔ peer ∈ t.stations.map (·.address) := by
  simp [contains, get?, List.find?_isSome]

theorem size_remove_lt (known : t.contains peer = true) : (t.remove peer).size < t.size := by
  obtain ⟨station, member, own⟩ := List.mem_map.mp (contains_iff.mp known)
  have shorter : (t.remove peer).size = t.size - 1 :=
    List.length_eraseP_of_mem member (by simpa using own)
  have some : 0 < t.size := List.length_pos_of_mem member
  omega

theorem within_of_ensure (ensured : t.ensure peer = .ok s) (within : t.Within) : s.Within := by
  unfold ensure at ensured
  split at ensured
  · cases ensured
    exact within
  · split at ensured
    · cases ensured
    case isFalse space =>
      cases ensured
      simp only [Within, size, List.length_append, List.length_singleton] at space ⊢
      omega

/-- What is done about a station that is known lets no other one in. -/
theorem Within.of_confined (within : t.Within) (confined : Confined peer t s)
    (known : t.contains peer = true) (capacity : s.capacity = t.capacity) : s.Within := by
  have fewer : s.stations.map (·.address) ⊆ t.stations.map (·.address) := by
    intro other member
    rw [← contains_iff] at member ⊢
    by_cases same : other = peer
    · exact same ▸ known
    · rwa [contains, ← confined.others other same]
  have bound := confined.distinct.length_le_of_subset fewer
  rw [List.length_map, List.length_map] at bound
  rw [Within, capacity]
  exact Nat.le_trans bound within

/-- The flows of a station that is not known are free. -/
theorem busy?_of_unknown {key : AgreementKey} (unknown : t.contains key.address = false) :
    t.busy? key = none := by
  have absent : t.get? key.address = none := by simpa [contains] using unknown
  simp [busy?, slot?, absent]

/-! ### Stations whose answers wait -/

/-- A station is known, and no action frame of it has to be answered. -/
structure Unnoted (peer : MacAddress) (t : StationTable) : Prop where
  known : t.contains peer = true
  unnoted : t.note? peer = none

theorem Unnoted.modifySlots {f : Slots → Slots} (unnoted : t.Unnoted peer) :
    (t.modifySlots peer f).Unnoted peer :=
  ⟨contains_modifySlots.trans unnoted.known, (note?_modifySlots f).trans unnoted.unnoted⟩

theorem unnoted_of_ensure (ensured : t.ensure peer = .ok s) (unnoted : t.note? peer = none) :
    s.Unnoted peer :=
  ⟨contains_of_ensure ensured, (note?_of_ensure ensured).trans unnoted⟩

end StationTable

namespace Negotiation

open StationTable (Confined Unnoted Within)

variable {n m : Negotiation} {peer : MacAddress} {flow : UInt8} {event : Event}

/-! ### The size of the table -/

theorem contains_of_stateOf {state : AgreementState} (stands : n.stateOf peer flow = some state) :
    n.stations.contains peer = true := by
  obtain ⟨station, known, -⟩ := Option.map_eq_some_iff.mp stands
  rw [StationTable.contains, known]
  rfl

theorem within_conclude {conclusion : Conclusion} (distinct : n.stations.Distinct)
    (within : n.stations.Within) (known : n.stations.contains event.source = true) :
    (n.conclude event conclusion).stations.Within :=
  within.of_confined (confined_conclude (.refl distinct)) known (capacity_conclude ..)

theorem within_handleEvent (distinct : n.stations.Distinct) (within : n.stations.Within)
    (event : Event) : (n.handleEvent event).1.stations.Within := by
  unfold handleEvent
  split
  · unfold handleTeardown
    split
    · rwa [show (n.handleOwnTeardown event).stations = n.stations from
        congrArg ResponderPart.stations (responderPart_handleOwnTeardown event n)]
    · split
      · split
        · exact within
        · exact within
        case h_3 stands => exact within_conclude distinct within (contains_of_stateOf stands)
      · exact within
  case h_2 command agreement _ =>
    split
    · split
      · split
        · exact within
        case h_2 stations ensured =>
          have extended := StationTable.distinct_of_ensure ensured distinct
          exact (StationTable.within_of_ensure ensured within).of_confined
            (confined_answerRequest (.refl extended)) (StationTable.contains_of_ensure ensured)
            (capacity_answerRequest ..)
      · exact within
    · split
      · rwa [show (n.handleAnswer event command).stations = n.stations from
          congrArg ResponderPart.stations (responderPart_handleAnswer event command n)]
      · exact within

theorem within_handleAll {events : List Event} (distinct : n.stations.Distinct)
    (within : n.stations.Within) : (handleAll events n).1.stations.Within := by
  have both : (handleAll events n).1.stations.Distinct ∧ (handleAll events n).1.stations.Within :=
    holds_handleAll (fun n => n.stations.Distinct ∧ n.stations.Within)
      (fun event _ _ holds => ⟨(confined_handleEvent holds.1 event).distinct,
        within_handleEvent holds.1 holds.2 event⟩) ⟨distinct, within⟩
  exact both.2

theorem within_takeAnswer (distinct : n.stations.Distinct) (within : n.stations.Within) :
    (n.takeAnswer peer).2.stations.Within := by
  have taken := answerTaken peer n
  generalize n.takeAnswer peer = result at taken ⊢
  cases taken with
  | nothing => exact within
  | established _ _ stands | cleared _ _ stands =>
      exact within_conclude (n := n.withoutAnswer peer) distinct within (contains_of_stateOf stands)
  | kept => exact within
  | refused => exact within

/-- The table of stations is never larger than its capacity. -/
theorem within_apply (distinct : n.stations.Distinct) (within : n.stations.Within)
    (operation : Operation) : (operation.apply n).stations.Within := by
  have result := applied n operation
  generalize operation.apply n = m at result ⊢
  cases result with
  | untouched same | queued _ same =>
      rwa [show m.stations = n.stations from congrArg ResponderPart.stations same]
  | @noted _ _ source token _ stations _ ensured same =>
      rw [show m.stations = stations.modify source _ from congrArg ResponderPart.stations same]
      have extended := StationTable.within_of_ensure ensured within
      simpa [Within, StationTable.size, StationTable.modify] using extended
  | handled source =>
      obtain ⟨events, tasks, handled⟩ := handleEvents_eq source n
      rw [handled]
      exact within_handleAll (n := n.opened source) distinct within
  | taken => exact within_takeAnswer distinct within
  | forgotten peer same =>
      rw [show m.stations = n.stations.remove peer from congrArg ResponderPart.stations same]
      exact Nat.le_trans (List.eraseP_sublist ..).length_le within
  | purged => exact within
  | cleared => exact Nat.zero_le _

/-! ### What lets a station in again -/

/-- A response that no action frame awaits leaves the table as it is. -/
theorem stations_respond_of_unnoted {answer : Event} {conclusion : Option Conclusion}
    (unnoted : n.stations.Unnoted answer.source) :
    (n.respond answer conclusion).stations = n.stations := by
  have response := responded answer conclusion n
  generalize n.respond answer conclusion = m at response ⊢
  cases response with
  | unknown => rfl
  | waiting => rfl
  | left _ noted | concluded _ noted =>
      rw [unnoted.unnoted] at noted
      cases noted

theorem unnoted_reject {agreement : Agreement} (unnoted : n.stations.Unnoted peer) :
    (n.reject peer flow agreement).stations.Unnoted peer := by
  have same : (n.reject peer flow agreement).stations = n.stations :=
    stations_respond_of_unnoted unnoted
  rwa [same]

theorem unnoted_accept {command : SetupCommand} {agreement : Agreement}
    (unnoted : n.stations.Unnoted peer) :
    (n.accept peer flow command agreement).stations.Unnoted peer := by
  rw [accept_eq]
  dsimp only
  split
  case h_1 schedule _ => exact unnoted_reject (n := { n with schedule }) unnoted
  case h_2 scheduled schedule _ =>
    let held : Negotiation := { n with
      schedule
      stations := n.stations.modifySlots peer
        (·.setAgreement flow (some (scheduled.withCommand .accept).updateParameters)) }
    have stillUnnoted : held.stations.Unnoted peer := unnoted.modifySlots
    rw [stations_respond_of_unnoted (n := held) stillUnnoted]
    exact stillUnnoted

/-- A request for a free flow keeps its station in the table until the response leaves. -/
theorem unnoted_consider {command : SetupCommand} {agreement : Agreement}
    (unnoted : n.stations.Unnoted peer) :
    (n.consider peer flow command agreement).stations.Unnoted peer := by
  unfold consider
  split
  · exact unnoted
  · cases command with
    | request | suggest => exact unnoted_accept unnoted.modifySlots
    | demand | grouping => exact unnoted_reject unnoted.modifySlots
    | accept | alternate | dictate | reject => exact unnoted

/-- An event of a free flow that asks for nothing leaves the table as it is. -/
theorem stations_handleEvent_of_silent (free : n.stations.busy? event.key = none)
    (silent : event.asks = false) : (n.handleEvent event).1.stations = n.stations := by
  cases body : event.body with
  | teardown =>
      have stands : (n.stateOf event.source event.flow).getD .noAgreement = .noAgreement :=
        standing_of_free free
      simp only [handleEvent, body, handleTeardown]
      split
      · exact congrArg ResponderPart.stations (responderPart_handleOwnTeardown event n)
      · split
        · split
          · rfl
          · rfl
          case h_3 state busy found =>
            rw [found] at stands
            exact absurd stands busy
        · rfl
  | setup command agreement =>
      have plain : command.isRequest = false := by
        simpa [Event.asks, Event.command?, body] using silent
      simp only [handleEvent, body, plain, Bool.false_eq_true, if_false]
      split
      · exact congrArg ResponderPart.stations (responderPart_handleAnswer event command n)
      · rfl

/-- A request for a free flow lets its station in, if the table has a place for it. -/
theorem unnoted_handleEvent_of_asks {stations : StationTable} (responds : n.responder = true)
    (free : n.stations.busy? event.key = none) (asks : event.asks = true)
    (unnoted : n.stations.note? event.source = none)
    (ensured : n.stations.ensure event.source = .ok stations) :
    (n.handleEvent event).1.stations.Unnoted event.source := by
  cases body : event.body with
  | teardown => simp [Event.asks, Event.command?, body] at asks
  | setup command agreement =>
      have requests : command.isRequest = true := by
        simpa [Event.asks, Event.command?, body] using asks
      have stands : { n with stations }.standing event.key = .noAgreement :=
        standing_of_free ((StationTable.busy?_of_ensure ensured).trans free)
      rw [handleEvent_of_request responds body requests ensured, stands]
      exact unnoted_consider (n := { n with stations })
        (StationTable.unnoted_of_ensure ensured unnoted)

/-- Flows that no event is about yet stay free. -/
theorem free_handleEvent {rest : List Event} (orderly : n.Orderly)
    (distinct : ((event :: rest).map Event.key).Nodup)
    (free : ∀ later ∈ event :: rest, n.stations.busy? later.key = none) :
    ∀ later ∈ rest, (n.handleEvent event).1.stations.busy? later.key = none := by
  intro later member
  have apart : later.key ≠ event.key := by
    rw [List.map_cons, List.nodup_cons] at distinct
    exact fun same => distinct.1 (same ▸ List.mem_map_of_mem member)
  rw [((concerns_handleEvent orderly event).others later.key apart).slot]
  exact free later (List.mem_cons_of_mem _ member)

/-- A batch of events of a station, all of them about free flows. -/
structure Fresh (peer : MacAddress) (events : List Event) (n : Negotiation) : Prop where
  orderly : n.Orderly
  responds : n.responder = true
  unnoted : n.stations.note? peer = none
  own : ∀ event ∈ events, event.source = peer
  distinct : (events.map Event.key).Nodup
  free : ∀ event ∈ events, n.stations.busy? event.key = none

/-- After its first event the others are as fresh. -/
theorem Fresh.tail {rest : List Event} (fresh : Fresh peer (event :: rest) n)
    (unnoted : (n.handleEvent event).1.stations.note? peer = none) :
    Fresh peer rest (n.handleEvent event).1 where
  orderly := (concerns_handleEvent fresh.orderly event).orderly
  responds :=
    (congrArg Surroundings.responder (surroundings_handleEvent event n)).trans fresh.responds
  unnoted := unnoted
  own later member := fresh.own later (List.mem_cons_of_mem _ member)
  distinct := (List.nodup_cons.mp fresh.distinct).2
  free := free_handleEvent fresh.orderly fresh.distinct fresh.free

/-- A fresh request lets its station in, if the table has a place for it. -/
theorem Fresh.unnoted_of_asks {rest : List Event} {stations : StationTable}
    (fresh : Fresh peer (event :: rest) n) (asks : event.asks = true)
    (ensured : n.stations.ensure peer = .ok stations) :
    (n.handleEvent event).1.stations.Unnoted peer := by
  obtain rfl := fresh.own event List.mem_cons_self
  exact unnoted_handleEvent_of_asks fresh.responds (fresh.free event List.mem_cons_self) asks
    fresh.unnoted ensured

/-- A known station stays in the table. -/
theorem Fresh.stays {events : List Event} (fresh : Fresh peer events n)
    (unnoted : n.stations.Unnoted peer) : (handleAll events n).1.stations.Unnoted peer := by
  induction events generalizing n with
  | nil => exact unnoted
  | cons event rest inductionHypothesis =>
      have still : (n.handleEvent event).1.stations.Unnoted peer := by
        cases asks : event.asks with
        | false =>
            rwa [stations_handleEvent_of_silent (fresh.free event List.mem_cons_self) asks]
        | true => exact fresh.unnoted_of_asks asks (if_pos unnoted.known)
      exact inductionHypothesis (fresh.tail still.unnoted) still

/-- A batch with a request in it lets its station in. -/
theorem Fresh.letsIn {events : List Event} {stations : StationTable} (fresh : Fresh peer events n)
    (asks : ∃ event ∈ events, event.asks = true)
    (ensured : n.stations.ensure peer = .ok stations) :
    (handleAll events n).1.stations.contains peer = true := by
  induction events generalizing n with
  | nil => simp at asks
  | cons event rest inductionHypothesis =>
      cases first : event.asks with
      | true =>
          have letIn := fresh.unnoted_of_asks first ensured
          exact ((fresh.tail letIn.unnoted).stays letIn).known
      | false =>
          have same : (n.handleEvent event).1.stations = n.stations :=
            stations_handleEvent_of_silent (fresh.free event List.mem_cons_self) first
          have later : ∃ event ∈ rest, event.asks = true := by
            simpa [first] using asks
          have stillUnnoted : (n.handleEvent event).1.stations.note? peer = none :=
            same ▸ fresh.unnoted
          have stillEnsured : (n.handleEvent event).1.stations.ensure peer = .ok stations :=
            same ▸ ensured
          exact inductionHypothesis (fresh.tail stillUnnoted) later stillEnsured

/-! ### What is left -/

/-- Whether an operation brings in something of a station. -/
def Operation.brings (peer : MacAddress) : Operation → Bool
  | receiveElement source _ | receiveSetup source _ _ | receiveTeardown source _ => source == peer
  | queueEvent event => event.source == peer
  | _ => false

/-- A station is not known, and none of its flows has a place in the schedule. -/
structure Absent (peer : MacAddress) (n : Negotiation) : Prop where
  station : n.stations.contains peer = false
  places : ∀ key, key.address = peer → n.schedule.contains key = false

/-- Nothing is left of a station but events. -/
structure Parted (peer : MacAddress) (n : Negotiation) : Prop extends Absent peer n where
  answers : ∀ answer ∈ n.answers.toList, answer.source ≠ peer

/-- Nothing is left of a station. -/
structure Forgotten (peer : MacAddress) (n : Negotiation) : Prop extends Parted peer n where
  events : ∀ event ∈ n.events.toList, event.source ≠ peer

/-- A station does not come back as long as nothing of it comes in. -/
def StaysAway (peer : MacAddress) (n : Negotiation) : Prop :=
  ∀ operations : List Operation, (∀ operation ∈ operations, operation.brings peer = false) →
    ∀ state ∈ reached n operations, Absent peer state

/-- Only a known station has places. -/
theorem absent_of_unknown (orderly : n.Orderly) (unknown : n.stations.contains peer = false) :
    Absent peer n where
  station := unknown
  places key own := by
    rw [Bool.eq_false_iff, Ne, Schedule.contains_iff orderly.wellFormed]
    rintro ⟨interval, place⟩
    exact orderly.listed key interval place (StationTable.busy?_of_unknown (own ▸ unknown))

/-- A station is not known, and no request of it is queued. -/
structure Away (peer : MacAddress) (n : Negotiation) : Prop where
  orderly : n.Orderly
  unknown : n.stations.contains peer = false
  silent : ∀ event ∈ n.events.toList, event.source = peer → event.asks = false

theorem contains_of_confined {other : MacAddress} {t s : StationTable}
    (confined : Confined other t s) (apart : peer ≠ other) : s.contains peer = t.contains peer := by
  rw [StationTable.contains, confined.others peer apart, StationTable.contains]

theorem unknown_handleEvent (orderly : n.Orderly) (unknown : n.stations.contains peer = false)
    (silent : event.source = peer → event.asks = false) :
    (n.handleEvent event).1.stations.contains peer = false := by
  by_cases own : event.source = peer
  · have addressed : event.key.address = peer := own
    have free : n.stations.busy? event.key = none :=
      StationTable.busy?_of_unknown (addressed ▸ unknown)
    rwa [stations_handleEvent_of_silent free (silent own)]
  · rwa [contains_of_confined (confined_handleEvent orderly.distinct event) (Ne.symm own)]

theorem unknown_handleAll {events : List Event} (orderly : n.Orderly)
    (unknown : n.stations.contains peer = false)
    (silent : ∀ event ∈ events, event.source = peer → event.asks = false) :
    (handleAll events n).1.stations.contains peer = false := by
  have both : (handleAll events n).1.Orderly ∧
      (handleAll events n).1.stations.contains peer = false :=
    holds_handleAll (fun n => n.Orderly ∧ n.stations.contains peer = false)
      (fun event member _ holds => ⟨(concerns_handleEvent holds.1 event).orderly,
        unknown_handleEvent holds.1 holds.2 (silent event member)⟩) ⟨orderly, unknown⟩
  exact both.2

theorem unknown_takeAnswer {other : MacAddress} (orderly : n.Orderly)
    (unknown : n.stations.contains peer = false) :
    (n.takeAnswer other).2.stations.contains peer = false := by
  have taken := answerTaken other n
  generalize n.takeAnswer other = result at taken ⊢
  cases taken with
  | nothing => exact unknown
  | @established answer _ _ _ _ stands | @cleared answer _ _ _ _ stands =>
      have apart : peer ≠ answer.source := by
        rintro rfl
        rw [contains_of_stateOf stands] at unknown
        cases unknown
      have left : (n.withoutAnswer other).stations.Distinct := orderly.distinct
      rwa [contains_of_confined (confined_conclude (.refl left)) apart]
  | kept => exact unknown
  | refused => exact unknown

theorem unknown_apply {operation : Operation} (away : Away peer n)
    (nothing : operation.brings peer = false) :
    (operation.apply n).stations.contains peer = false := by
  have unknown := away.unknown
  have result := applied n operation
  generalize operation.apply n = m at result ⊢
  cases result with
  | untouched same | queued _ same =>
      rwa [show m.stations = n.stations from congrArg ResponderPart.stations same]
  | @noted _ _ source token _ stations _ ensured same =>
      have apart : peer ≠ source := by
        rintro rfl
        simp [Operation.brings] at nothing
      have confined : Confined source n.stations (stations.withNote source token) :=
        (Confined.ensure ensured away.orderly.distinct).modify fun _ => rfl
      rw [show m.stations = stations.withNote source token from
        congrArg ResponderPart.stations same]
      rwa [contains_of_confined confined apart]
  | handled source =>
      obtain ⟨events, tasks, handled⟩ := handleEvents_eq source n
      rw [handled]
      have opened : (n.opened source).Orderly := away.orderly.congr rfl rfl
      exact unknown_handleAll opened unknown fun event isDue =>
        away.silent event (List.mem_filter.mp isDue).1
  | taken => exact unknown_takeAnswer away.orderly unknown
  | forgotten other same =>
      rw [show m.stations = n.stations.remove other from congrArg ResponderPart.stations same,
        StationTable.contains, StationTable.get?_remove away.orderly.distinct]
      split
      · rfl
      · exact unknown
  | purged => exact unknown
  | cleared => rfl

/-- What an operation queues is of the station that it brings something of. -/
theorem brings_of_queued {operation : Operation} (queued : operation.queued? n = some event) :
    operation.brings event.source = true := by
  cases operation
  case receiveElement source element | receiveSetup source token element =>
    obtain ⟨agreement, -, rfl⟩ := Option.map_eq_some_iff.mp queued
    simp [Operation.brings, Event.setup]
  case receiveTeardown source flow =>
    rw [Operation.queued?] at queued
    split at queued
    · cases queued
      simp [Operation.brings, Event.teardown]
    · cases queued
  case queueEvent other =>
    cases queued
    simp [Operation.brings]
  all_goals cases queued

theorem away_apply {operation : Operation} (away : Away peer n)
    (nothing : operation.brings peer = false) : Away peer (operation.apply n) where
  orderly := orderly_apply away.orderly operation
  unknown := unknown_apply away nothing
  silent event member own := by
    cases queued : operation.queued? n with
    | none => exact away.silent event (mem_events_of_silent queued member) own
    | some latest =>
        rw [events_of_queued queued] at member
        rcases EventQueue.mem_or_eq_of_mem_pushLatest member with old | rfl
        · exact away.silent event old own
        · rw [← own, brings_of_queued queued] at nothing
          cases nothing

theorem Away.staysAway (away : Away peer n) : StaysAway peer n := by
  intro operations nothing state member
  have stillAway : Away peer state :=
    Runs.invariant_of_steps (Away peer) (fun _ _ => away_apply) away
      (fun step taken => nothing step.2 (Runs.mem_of_mem_steps taken).2) state member
  exact absent_of_unknown stillAway.orderly stillAway.unknown

/-! ### Leaving -/

/-- What holds all along the run of a responder. -/
structure Regular (n : Negotiation) : Prop where
  orderly : n.Orderly
  responds : n.responder = true
  within : n.stations.Within
  distinct : n.events.Distinct

theorem regular_new {settings : Settings} (responds : settings.responder = true) :
    (new settings).Regular where
  orderly := orderly_new settings
  responds := responds
  within := Nat.zero_le _
  distinct := EventQueue.distinct_empty

theorem regular_apply (regular : n.Regular) (operation : Operation) :
    (operation.apply n).Regular where
  orderly := orderly_apply regular.orderly operation
  responds := (responder_apply n operation).trans regular.responds
  within := within_apply regular.orderly.distinct regular.within operation
  distinct := distinct_apply regular.distinct operation

theorem unknown_dropStation (orderly : n.Orderly) :
    (n.dropStation peer).stations.contains peer = false := by
  rw [dropStation, StationTable.contains, StationTable.get?_remove orderly.distinct, if_pos rfl]
  rfl

theorem parted_dropStation (orderly : n.Orderly) : Parted peer (n.dropStation peer) where
  toAbsent := absent_of_unknown (orderly_dropStation orderly) (unknown_dropStation orderly)
  answers answer member := by
    have left : ¬ answer.passes (some peer) none = true := by
      simpa using (List.mem_filter.mp member).2
    rwa [Event.passes_some_none] at left

/-- A station that is known leaves; whether the own flows are reset does not matter to it. -/
theorem exists_own_of_known (known : n.stations.contains peer = true) :
    ∃ own, n.removeStation peer = (.ok (), { n with own }.dropStation peer) := by
  have removed := stationRemoved peer n
  generalize n.removeStation peer = result at removed ⊢
  cases removed with
  | forgotten => exact ⟨_, rfl⟩
  | unknown absent =>
      rw [known] at absent
      cases absent

/-- A station that left a request behind is let in again when its events are handled. -/
theorem letIn_dropStation (regular : n.Regular) (known : n.stations.contains peer = true)
    (asks : ∃ event ∈ n.events.toList, event.source = peer ∧ event.asks = true) :
    ((n.dropStation peer).handleEvents (some peer)).stations.contains peer = true := by
  have unknown : (n.dropStation peer).stations.contains peer = false :=
    unknown_dropStation regular.orderly
  have space : (n.dropStation peer).stations.size < (n.dropStation peer).stations.capacity :=
    Nat.lt_of_lt_of_le (StationTable.size_remove_lt known) regular.within
  obtain ⟨stations, ensured⟩ :
      ∃ stations, (n.dropStation peer).stations.ensure peer = .ok stations :=
    StationTable.exists_ensure (.inr space)
  have ofPeer {event : Event} : event ∈ (n.dropStation peer).due (some peer) ↔
      event ∈ n.events.toList ∧ event.source = peer := by
    rw [due, List.mem_filter, Event.passes_some_none]
    rfl
  have fresh : Fresh peer ((n.dropStation peer).due (some peer))
      ((n.dropStation peer).opened (some peer)) :=
    { orderly := (orderly_dropStation regular.orderly).congr rfl rfl
      responds := regular.responds
      unnoted := StationTable.note?_of_unknown unknown
      own := fun event isDue => (ofPeer.mp isDue).2
      distinct := distinct_due (n := n.dropStation peer) regular.distinct (some peer)
      free := fun event isDue => by
        have own : event.key.address = peer := (ofPeer.mp isDue).2
        exact StationTable.busy?_of_unknown (own ▸ unknown) }
  obtain ⟨event, queued, own, requests⟩ := asks
  obtain ⟨events, tasks, handled⟩ := handleEvents_eq (some peer) (n.dropStation peer)
  rw [handled]
  exact fresh.letsIn ⟨event, ofPeer.mpr ⟨queued, own⟩, requests⟩ ensured

theorem not_staysAway_of_letIn {source : Option MacAddress}
    (letIn : (n.handleEvents source).stations.contains peer = true) : ¬ StaysAway peer n := by
  intro away
  have absent := away [.handleEvents source] (by simp [Operation.brings]) (n.handleEvents source)
    (by simp [reached, Runs.reached, Operation.apply])
  rw [absent.station] at letIn
  cases letIn

theorem staysAway_dropStation_iff (regular : n.Regular) (known : n.stations.contains peer = true) :
    StaysAway peer (n.dropStation peer) ↔
      ∀ event ∈ n.events.toList, event.source = peer → event.asks = false := by
  constructor
  · intro away event queued own
    rw [Bool.eq_false_iff]
    intro asks
    exact not_staysAway_of_letIn
      (letIn_dropStation regular known ⟨event, queued, own, asks⟩) away
  · intro silent
    have away : Away peer (n.dropStation peer) :=
      ⟨orderly_dropStation regular.orderly, unknown_dropStation regular.orderly, silent⟩
    exact away.staysAway

/-- A station that leaves a responder takes its place in the table, its places in the schedule and
the answers that wait for it along. It is forgotten exactly if nothing of it was queued, and stays
away exactly if no request of it was. -/
theorem forgotten_iff_nothingQueued (settings : Settings) (operations : List Operation)
    (responds : settings.responder = true) :
    ∀ n ∈ reached (new settings) operations, ∀ peer, n.stations.contains peer = true →
      (n.removeStation peer).1 = .ok () ∧ Parted peer (n.removeStation peer).2 ∧
        (Forgotten peer (n.removeStation peer).2 ↔
          ∀ event ∈ n.events.toList, event.source ≠ peer) ∧
        (StaysAway peer (n.removeStation peer).2 ↔
          ∀ event ∈ n.events.toList, event.source = peer → event.asks = false) := by
  intro n member peer known
  have regular : n.Regular :=
    invariant_of_apply Regular (fun _ operation regular => regular_apply regular operation)
      (regular_new responds) n member
  obtain ⟨own, removed⟩ := exists_own_of_known known
  have stillRegular : { n with own }.Regular :=
    ⟨regular.orderly.congr rfl rfl, regular.responds, regular.within, regular.distinct⟩
  have parted : Parted peer ({ n with own }.dropStation peer) :=
    parted_dropStation stillRegular.orderly
  rw [removed]
  refine ⟨rfl, parted, ⟨Forgotten.events, fun nothing => ⟨parted, nothing⟩⟩, ?_⟩
  exact staysAway_dropStation_iff stillRegular known

/-- The request of a station waits to be handled. -/
def unhandledRequest : List Operation :=
  [.receiveSetup ⟨2, 0, 0, 0, 0, 1⟩ 1 (requestElement 0 1 1024)]

/-- Once its request has been handled, the station leaves nothing behind, and does not come back. -/
theorem forgotten_iff_nothingQueued_handledRequest :
    (run (new .accessPoint) (unhandledRequest ++ [.handleEvents none])).stations.contains
        ⟨2, 0, 0, 0, 0, 1⟩ = true ∧
      Forgotten ⟨2, 0, 0, 0, 0, 1⟩ ((run (new .accessPoint)
        (unhandledRequest ++ [.handleEvents none])).removeStation ⟨2, 0, 0, 0, 0, 1⟩).2 ∧
      StaysAway ⟨2, 0, 0, 0, 0, 1⟩ ((run (new .accessPoint)
        (unhandledRequest ++ [.handleEvents none])).removeStation ⟨2, 0, 0, 0, 0, 1⟩).2 := by
  have known : (run (new .accessPoint) (unhandledRequest ++ [.handleEvents none])).stations.contains
      ⟨2, 0, 0, 0, 0, 1⟩ = true := by
    decide +kernel
  have empty : (run (new .accessPoint) (unhandledRequest ++ [.handleEvents none])).events.toList =
      [] := by
    decide +kernel
  have member := run_mem_reached (new .accessPoint) (unhandledRequest ++ [.handleEvents none])
  obtain ⟨-, -, forgotten, staysAway⟩ :=
    forgotten_iff_nothingQueued .accessPoint (unhandledRequest ++ [.handleEvents none]) rfl _
      member _ known
  rw [empty] at forgotten staysAway
  exact ⟨known, forgotten.mpr (by simp), staysAway.mpr (by simp)⟩

/-- A station that leaves before that leaves its request behind, and is let in again for it. -/
theorem not_forgotten_unhandledRequest :
    (run (new .accessPoint) unhandledRequest).stations.contains ⟨2, 0, 0, 0, 0, 1⟩ = true ∧
      ¬ Forgotten ⟨2, 0, 0, 0, 0, 1⟩
        ((run (new .accessPoint) unhandledRequest).removeStation ⟨2, 0, 0, 0, 0, 1⟩).2 ∧
      ¬ StaysAway ⟨2, 0, 0, 0, 0, 1⟩
        ((run (new .accessPoint) unhandledRequest).removeStation ⟨2, 0, 0, 0, 0, 1⟩).2 := by
  have queued : ¬ ∀ event ∈ ((run (new .accessPoint) unhandledRequest).removeStation
      ⟨2, 0, 0, 0, 0, 1⟩).2.events.toList, event.source ≠ ⟨2, 0, 0, 0, 0, 1⟩ := by
    decide +kernel
  have back : (((run (new .accessPoint) unhandledRequest).removeStation
      ⟨2, 0, 0, 0, 0, 1⟩).2.handleEvents none).stations.contains ⟨2, 0, 0, 0, 0, 1⟩ = true := by
    decide +kernel
  exact ⟨by decide +kernel, fun forgotten => queued forgotten.events, not_staysAway_of_letIn back⟩

end Negotiation

end TargetWakeTime
