import TargetWakeTime.Proofs.Negotiation.GrantedAgreements
import TargetWakeTime.Proofs.Negotiation.Resolution

/-!
Contract: a responder that serves a fixed set of stations and has room for all of them.

Owns:
- what holds of such a responder all along: its role, room for every station that it serves, and at
  any time which events are queued and what is noted for whom;
- what becomes of it when a frame comes in, when a queued event is handled, and when a station leaves,
  if there is at most one event at a time.

Since there is always room, no event is ever put off.
-/

namespace TargetWakeTime.Negotiation

/-- A responder with room for all that it serves, no deferred work, and these events and notes. -/
structure Serving (served : List MacAddress) (queued : List Event)
    (noted : MacAddress → Option UInt8) (n : Negotiation) : Prop where
  responder : n.responder = true
  requester : n.requester = false
  unlinked : n.link.bssid = none
  orderly : n.Orderly
  roomy : served.length ≤ n.stations.capacity
  known : ∀ peer, n.stations.contains peer = true → peer ∈ served
  events : n.events.toList = queued
  notes : ∀ peer, n.stations.note? peer = noted peer
  tasks : n.tasks = []

variable {n m : Negotiation} {served : List MacAddress} {queued : List Event}
  {noted : MacAddress → Option UInt8} {peer : MacAddress} {flow token : UInt8} {event : Event}
  {agreement : Agreement}

open StationTable (Confined)

/-- Only the stations and the schedule are in order or not. -/
theorem Orderly.congr (orderly : n.Orderly) (stations : m.stations = n.stations)
    (schedule : m.schedule = n.schedule) : m.Orderly where
  distinct := stations ▸ orderly.distinct
  wellFormed := schedule ▸ orderly.wellFormed
  listed := by
    rw [stations, schedule]
    exact orderly.listed

theorem contains_of_busy? {key : AgreementKey} {slot : Slot} (busy : n.stations.busy? key = some slot) :
    n.stations.contains key.address = true :=
  StationTable.contains_of_slot? (StationTable.busy?_eq_some_iff.mp busy).1

/-- There is a place for every station that is served. -/
theorem Serving.ensure (serving : n.Serving served queued noted) (member : peer ∈ served) :
    ∃ stations, n.stations.ensure peer = .ok stations := by
  cases contained : n.stations.contains peer with
  | true => exact ⟨n.stations, by rw [StationTable.ensure, if_pos contained]⟩
  | false =>
      let addresses := n.stations.stations.map (·.address)
      have absent : peer ∉ addresses := by
        intro present
        obtain ⟨station, inTable, rfl⟩ := List.mem_map.mp present
        have found := StationTable.get?_of_mem serving.orderly.distinct inTable
        rw [StationTable.contains, found] at contained
        cases contained
      have withPeer : (peer :: addresses).Nodup :=
        List.nodup_cons.mpr ⟨absent, serving.orderly.distinct⟩
      have within : peer :: addresses ⊆ served := by
        intro other member
        rcases List.mem_cons.mp member with rfl | present
        · assumption
        · obtain ⟨station, inTable, rfl⟩ := List.mem_map.mp present
          apply serving.known
          rw [StationTable.contains, StationTable.get?_of_mem serving.orderly.distinct inTable]
          rfl
      have fewer : n.stations.size + 1 ≤ served.length := by
        have bound := withPeer.length_le_of_subset within
        simpa [addresses, StationTable.size] using bound
      have space : ¬ n.stations.capacity ≤ n.stations.size := by
        have room := serving.roomy
        omega
      refine ⟨{ n.stations with stations := n.stations.stations ++ [{ address := peer }] }, ?_⟩
      rw [StationTable.ensure, contained, if_neg Bool.false_ne_true, if_neg space]

/-- A change of one station that is served lets no other station in. -/
theorem known_of_confined {stations : StationTable} (serving : n.Serving served queued noted)
    (member : peer ∈ served) (confined : Confined peer n.stations stations) :
    ∀ other, stations.contains other = true → other ∈ served := by
  intro other contained
  by_cases same : other = peer
  · exact same ▸ member
  · apply serving.known
    rwa [StationTable.contains, ← confined.others other same]

/-! ### What comes in -/

theorem toList_queueEvent (empty : n.events.toList = []) :
    (n.queueEvent event).events.toList = [event] := by
  simp [queueEvent, EventQueue.pushLatest, EventQueue.push, EventQueue.purge, empty]

/-- A request that comes in is queued, and noted, and changes no flow. -/
theorem Serving.receiveSetup (serving : n.Serving served [] fun _ => none) (token : UInt8)
    (member : peer ∈ served) (legible : agreement.Legible) :
    ∃ m, (n.receiveSetup peer token agreement.element).2.takeTasks = ([.handleEvents none], m) ∧
      m.Serving served [.setup peer agreement] (fun other => if other = peer then some token else none) ∧
      m.link = n.link ∧ ∀ key, m.stations.busy? key = n.stations.busy? key := by
  obtain ⟨room, exists_⟩ := serving.ensure member
  have read := legible.parse_element
  have received := setupReceived peer token agreement.element n
  generalize n.receiveSetup peer token agreement.element = result at received ⊢
  cases received with
  | malformed unread =>
      rw [read] at unread
      cases unread
  | crowded _ full =>
      rw [exists_] at full
      cases full
  | plain _ silent =>
      have linked := silent serving.responder
      rw [isBssid, serving.unlinked] at linked
      cases linked
  | @noted same stations readSame _ ensured =>
      obtain rfl : agreement = same := Except.ok.inj (read.symm.trans readSame)
      have extended := neutral_ensure serving.orderly ensured
      have withNote : Neutral { n with stations } { n with stations := stations.withNote peer token } :=
        neutral_modify extended.orderly (fun _ => rfl) (fun _ => rfl)
      have neutral := extended.trans withNote
      have contained : stations.contains peer = true := by
        rw [StationTable.contains, StationTable.get?_of_ensure ensured, if_pos rfl]
        rfl
      have confined : Confined peer n.stations (stations.withNote peer token) :=
        (Confined.ensure ensured serving.orderly.distinct).modify fun _ => rfl
      have tasks : n.tasks ++ [Task.handleEvents none] = [.handleEvents none] := by
        rw [serving.tasks]
        rfl
      refine ⟨_, congrArg (·, _) tasks, ?_, rfl, fun key => (neutral.flows key).slot⟩
      exact
        { responder := serving.responder
          requester := serving.requester
          unlinked := serving.unlinked
          orderly := neutral.orderly.congr rfl rfl
          roomy := (capacity_of_ensure ensured).symm ▸ serving.roomy
          known := known_of_confined serving member confined
          events := toList_queueEvent serving.events
          notes := fun other => by
            show (stations.withNote peer token).note? other = _
            rw [StationTable.note?_withNote contained, StationTable.note?_of_ensure ensured,
              serving.notes]
          tasks := rfl }

/-- A teardown of a flow that is busy is queued. -/
theorem Serving.receiveTeardown {slot : Slot} (serving : n.Serving served [] fun _ => none)
    (busy : n.stations.busy? ⟨peer, flow⟩ = some slot) :
    ∃ m, (n.receiveTeardown peer flow).2.takeTasks = ([.handleEvents none], m) ∧
      m.Serving served [.teardown peer flow] (fun _ => none) ∧
      m.link = n.link ∧ ∀ key, m.stations.busy? key = n.stations.busy? key := by
  have contained : n.stations.contains peer = true := contains_of_busy? busy
  have received := teardownReceived peer flow n
  generalize n.receiveTeardown peer flow = result at received ⊢
  cases received with
  | unknown absent =>
      rw [contained] at absent
      cases absent
  | queued =>
      have tasks : n.tasks ++ [Task.handleEvents none] = [.handleEvents none] := by
        rw [serving.tasks]
        rfl
      refine ⟨_, congrArg (·, _) tasks, ?_, rfl, fun _ => rfl⟩
      exact
        { serving with
          orderly := serving.orderly.congr rfl rfl
          events := toList_queueEvent serving.events
          tasks := rfl }

/-! ### What is handled -/

/-- What holds of the responder before an event is taken up. -/
theorem Serving.opened (serving : n.Serving served queued noted) :
    ({ n with events := {} } : Negotiation).Serving served [] noted :=
  { serving with
    orderly := serving.orderly.congr rfl rfl
    events := rfl }

/-- The handling of an event keeps the role, the room and the stations, whatever it answers. -/
theorem Serving.handled {m : Negotiation} {left : MacAddress → Option UInt8}
    (serving : n.Serving served [] noted) (member : event.source ∈ served)
    (same : (n.handleEvent event).1 = m) (notes : ∀ other, m.stations.note? other = left other) :
    ({ m with tasks := [] } : Negotiation).Serving served [] left ∧ m.link = n.link ∧
      ∀ key, key ≠ event.key → m.stations.busy? key = n.stations.busy? key := by
  subst same
  have surroundings := surroundings_handleEvent event n
  have concerned := concerns_handleEvent serving.orderly event
  have confined := confined_handleEvent serving.orderly.distinct event
  have link : (n.handleEvent event).1.link = n.link := congrArg Surroundings.link surroundings
  refine ⟨?_, link, fun key apart => (concerned.others key apart).slot⟩
  exact
    { responder := (congrArg Surroundings.responder surroundings).trans serving.responder
      requester := (congrArg Surroundings.requester surroundings).trans serving.requester
      unlinked := (congrArg Association.bssid link).trans serving.unlinked
      orderly := concerned.orderly.congr rfl rfl
      roomy := (capacity_handleEvent event n).symm ▸ serving.roomy
      known := known_of_confined serving member confined
      events := (congrArg (EventQueue.toList ∘ Surroundings.events) surroundings).trans serving.events
      notes
      tasks := rfl }

/-- Once a request was answered in an action frame, nothing is noted for its station. -/
theorem note?_of_resolved {m : Negotiation} {answer : Agreement}
    (serving : n.Serving served [] fun other => if other = peer then some token else none)
    (resolved : Resolved peer flow token n answer m)
    (replied : Replied ⟨peer, flow⟩ n m) (other : MacAddress) : m.stations.note? other = none := by
  cases replied with
  | silent tasks chipOnly =>
      have member := List.append_cancel_left (tasks.symm.trans resolved.tasks)
      have only := chipOnly (.sendSetup peer token answer.element flow)
        (member ▸ List.mem_singleton_self _)
      cases only
  | waits unnoted =>
      rw [show n.stations.note? peer = _ from serving.notes peer, if_pos rfl] at unnoted
      cases unnoted
  | inFrame _ _ _ kept =>
      refine kept.eq_none ?_
      rw [StationTable.note?_withoutNote, serving.notes]
      simp

/-- The request that was queued is answered at once. -/
theorem Serving.answer (serving : n.Serving served [.setup peer agreement]
      fun other => if other = peer then some token else none)
    (member : peer ∈ served) (legible : agreement.Legible)
    (requests : agreement.command.isRequest = true)
    (free : n.stations.busy? ⟨peer, agreement.flow⟩ = none) :
    ∃ answer m, (n.handleEvents none).takeTasks =
        ([.sendSetup peer token answer.element agreement.flow], m) ∧
      m.Serving served [] (fun _ => none) ∧ m.link = n.link ∧
      (∀ key, key ≠ ⟨peer, agreement.flow⟩ → m.stations.busy? key = n.stations.busy? key) ∧
      answer.Legible ∧ answer.flow = agreement.flow ∧
      (answer.command = .accept ∧
          m.stations.busy? ⟨peer, agreement.flow⟩ = some ⟨.agreement, some answer⟩ ∨
        answer.command = .reject ∧ m.stations.busy? ⟨peer, agreement.flow⟩ = none) := by
  have opened := serving.opened
  have noted : ({ n with events := {} } : Negotiation).stations.note? peer = some token := by
    rw [opened.notes, if_pos rfl]
  obtain ⟨answer, resolved⟩ :=
    resolved_handleEvent opened.orderly opened.responder noted legible requests free
  have replied := replied_handleEvent opened.orderly.distinct (.setup peer agreement)
  obtain ⟨served, link, others⟩ :=
    opened.handled member rfl (note?_of_resolved opened resolved replied)
  have placed : ({ n with events := {} }.handleEvent (.setup peer agreement)).2 = false := by
    obtain ⟨stations, ensured⟩ := opened.ensure member
    simp only [handleEvent, Event.setup]
    rw [if_pos requests, if_pos opened.responder, ensured]
  rw [handleEvents_of_single serving.events placed]
  refine ⟨answer, _, congrArg (·, _) ?_, served, link, others, resolved.legible, resolved.sameFlow,
    resolved.held⟩
  rw [resolved.tasks, opened.tasks]
  rfl

/-- The teardown that was queued frees its flow. -/
theorem Serving.tearDown {slot : Slot}
    (serving : n.Serving served [event] fun _ => none) (tears : event.body = .teardown)
    (busy : n.stations.busy? event.key = some slot) :
    ∃ m, (n.handleEvents none).takeTasks = ([], m) ∧ m.Serving served [] (fun _ => none) ∧
      m.link = n.link ∧
      (∀ key, key ≠ event.key → m.stations.busy? key = n.stations.busy? key) ∧
      m.stations.busy? event.key = none := by
  have opened := serving.opened
  obtain ⟨found, notFree⟩ := StationTable.busy?_eq_some_iff.mp busy
  have member : event.source ∈ served := serving.known _ (contains_of_busy? busy)
  have handled : ({ n with events := {} }.handleEvent event) =
      (({ n with events := {} } : Negotiation).conclude event .cleared, false) := by
    have stands : ({ n with events := {} } : Negotiation).stateOf event.source event.flow =
        some slot.state := stateOf_of_slot? (n := { n with events := {} }) found
    simp only [handleEvent, tears, handleTeardown]
    rw [show (n.requester && _) = false by rw [serving.requester]; rfl, if_neg Bool.false_ne_true,
      if_pos serving.responder, stands]
    cases state : slot.state with
    | noAgreement => exact absurd state notFree
    | considerRequest | considerSuggest | considerDemand | considerGrouping | agreement => rfl
  have quiet : Quiet { n with events := {} }
      (({ n with events := {} } : Negotiation).conclude event .cleared) :=
    quiet_conclude opened.orderly.distinct
  have notes (other : MacAddress) :
      (({ n with events := {} } : Negotiation).conclude event .cleared).stations.note? other = none :=
    quiet.kept.eq_none (opened.notes other)
  obtain ⟨left, link, others⟩ := opened.handled member (congrArg (·.1) handled) notes
  rw [handleEvents_of_single serving.events (congrArg (·.2) handled), congrArg (·.1) handled]
  refine ⟨_, congrArg (·, _) (quiet.tasks.trans opened.tasks), left, link, others, ?_⟩
  exact busy?_conclude_cleared event opened.orderly

/-! ### What comes and goes -/

theorem serving_new (room : served.length ≤ Settings.accessPoint.maximumStations) :
    (new .accessPoint).Serving served [] fun _ => none where
  responder := rfl
  requester := rfl
  unlinked := rfl
  orderly := orderly_new .accessPoint
  roomy := room
  known _ contained := by cases contained
  events := rfl
  notes _ := rfl
  tasks := rfl

theorem Serving.relink {link : Association} (serving : n.Serving served queued noted)
    (unlinked : link.bssid = none) : ({ n with link } : Negotiation).Serving served queued noted :=
  { serving with
    unlinked
    orderly := serving.orderly.congr rfl rfl }

/-- A station that leaves takes its flows along. -/
theorem Serving.removeStation (serving : n.Serving served [] fun _ => none) (peer : MacAddress) :
    ∃ m, (n.removeStation peer).2.takeTasks = ([], m) ∧ m.Serving served [] (fun _ => none) ∧
      m.link = n.link ∧
      (∀ key, key.address ≠ peer → m.stations.busy? key = n.stations.busy? key) ∧
      ∀ flow, m.stations.busy? ⟨peer, flow⟩ = none := by
  have stays : (n.requester && n.isBssid peer) = false := by
    rw [serving.requester]
    rfl
  unfold Negotiation.removeStation
  dsimp only
  rw [stays, if_neg Bool.false_ne_true]
  cases contained : n.stations.contains peer with
  | false =>
      refine ⟨{ n with tasks := [] }, congrArg (·, _) serving.tasks, ?_, rfl, fun _ _ => rfl, ?_⟩
      · exact { serving with
          orderly := serving.orderly.congr rfl rfl
          tasks := rfl }
      · intro flow
        have absent : n.stations.get? peer = none := by
          simpa [StationTable.contains] using contained
        show n.stations.busy? ⟨peer, flow⟩ = none
        simp [StationTable.busy?, StationTable.slot?, absent]
  | true =>
      have left : (n.dropStation peer).Orderly := orderly_dropStation serving.orderly
      have kept := NotesKept.remove serving.orderly.distinct peer
      have gone (other : MacAddress) : (n.dropStation peer).stations.get? other =
          if other = peer then none else n.stations.get? other :=
        StationTable.get?_remove serving.orderly.distinct
      refine ⟨{ n.dropStation peer with tasks := [] }, congrArg (·, _) serving.tasks, ?_, rfl, ?_, ?_⟩
      · exact
          { responder := serving.responder
            requester := serving.requester
            unlinked := serving.unlinked
            orderly := left.congr rfl rfl
            roomy := serving.roomy
            known := fun other still => by
              apply serving.known
              rw [StationTable.contains] at still ⊢
              rw [gone other] at still
              split at still
              · cases still
              · exact still
            events := serving.events
            notes := fun other => kept.eq_none (serving.notes other)
            tasks := rfl }
      · intro key apart
        exact StationTable.busy?_of_slot? ((StationTable.slot?_remove serving.orderly.distinct).trans
          (if_neg apart))
      · intro flow
        have absent : (n.stations.remove peer).slot? ⟨peer, flow⟩ = none :=
          (StationTable.slot?_remove serving.orderly.distinct).trans (if_pos rfl)
        show (n.stations.remove peer).busy? ⟨peer, flow⟩ = none
        rw [StationTable.busy?, absent]
        rfl

end TargetWakeTime.Negotiation
