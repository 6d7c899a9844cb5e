import TargetWakeTime.Proofs.Negotiation.IdleStations
import TargetWakeTime.Proofs.Negotiation.Reply

/-!
Contract: a handling loses no event and handles none twice.

Owns:
- the requests that are crowded out, which come from unknown stations while the table is full;
- a handling as it goes, one oldest event after the other until none is left;
- what a handling leaves queued, what it does with everything else, and when it asks for another try.

Whether a request is crowded out depends on what was handled before it in the same pass: others may
have taken the last place, or given one up.
-/

namespace TargetWakeTime.Negotiation

/-- A request to a responder whose table is full, from a station that has no place in it. -/
structure CrowdedOut (event : Event) (n : Negotiation) : Prop where
  asks : event.asks = true
  responds : n.responder = true
  unknown : n.stations.contains event.source = false
  full : n.stations.capacity ≤ n.stations.size

/-- As long as an event from the source is queued, the oldest one is taken out. It is handled at
once, or put aside if it is crowded out. -/
inductive Drains (source : Option MacAddress) :
    (n : Negotiation) → (processed aside : List Event) → (m : Negotiation) → Prop where
  | done {n : Negotiation} (empty : n.events.pop? source none = none) : Drains source n [] [] n
  | handles {n m : Negotiation} {event : Event} {events : EventQueue}
      {processed aside : List Event} (popped : n.events.pop? source none = some (event, events))
      (placed : ¬ CrowdedOut event n)
      (rest : Drains source (Negotiation.handleEvent event { n with events }).1 processed aside m) :
      Drains source n (event :: processed) aside m
  | putsAside {n m : Negotiation} {event : Event} {events : EventQueue}
      {processed aside : List Event} (popped : n.events.pop? source none = some (event, events))
      (crowded : CrowdedOut event n) (rest : Drains source { n with events } processed aside m) :
      Drains source n processed (event :: aside) m

def withEvents (events : EventQueue) (n : Negotiation) : Negotiation := { n with events }

variable {n m : Negotiation} {event : Event} {events : EventQueue} {source : Option MacAddress}

/-! ### What is queued makes no difference to what is handled -/

@[simp] theorem stations_withEvents : (n.withEvents events).stations = n.stations := rfl

@[simp] theorem schedule_withEvents : (n.withEvents events).schedule = n.schedule := rfl

@[simp] theorem responder_withEvents : (n.withEvents events).responder = n.responder := rfl

@[simp] theorem answers_withEvents : (n.withEvents events).answers = n.answers := rfl

@[simp] theorem link_withEvents : (n.withEvents events).link = n.link := rfl

@[simp] theorem own_withEvents : (n.withEvents events).own = n.own := rfl

@[simp] theorem requester_withEvents : (n.withEvents events).requester = n.requester := rfl

@[simp] theorem isBssid_withEvents (peer : MacAddress) :
    (n.withEvents events).isBssid peer = n.isBssid peer := rfl

@[simp] theorem stateOf_withEvents (peer : MacAddress) (flow : UInt8) :
    (n.withEvents events).stateOf peer flow = n.stateOf peer flow := rfl

theorem collectIdle_withEvents (peer : MacAddress) :
    (n.withEvents events).collectIdle peer = (n.collectIdle peer).withEvents events := by
  unfold collectIdle
  rw [stations_withEvents]
  cases n.stations.get? peer with
  | none => rfl
  | some station =>
      dsimp only
      split <;> rfl

theorem conclude_withEvents (conclusion : Conclusion) :
    (n.withEvents events).conclude event conclusion =
      (n.conclude event conclusion).withEvents events := by
  unfold conclude
  rw [stations_withEvents]
  cases n.stations.slot? ⟨event.source, event.flow⟩ with
  | none => rfl
  | some slot =>
      cases conclusion
      case established => cases event.agreement? <;> rfl
      case cleared =>
        exact collectIdle_withEvents (n := { n.setState _ _ _ with schedule := _, stations := _ }) _

theorem respond_withEvents (answer : Event) (conclusion : Option Conclusion) :
    (n.withEvents events).respond answer conclusion =
      (n.respond answer conclusion).withEvents events := by
  unfold respond
  rw [stations_withEvents]
  cases n.stations.get? answer.source with
  | none => rfl
  | some station =>
      dsimp only
      split
      case isFalse => rfl
      case isTrue =>
        cases conclusion with
        | none => cases answer.agreement? <;> rfl
        | some conclusion =>
            cases answer.agreement? <;>
              exact conclude_withEvents (n := { n with stations := _, tasks := _ }) conclusion

theorem reject_withEvents (peer : MacAddress) (flow : UInt8) (agreement : Agreement) :
    (n.withEvents events).reject peer flow agreement =
      (n.reject peer flow agreement).withEvents events :=
  respond_withEvents _ _

theorem accept_withEvents (peer : MacAddress) (flow : UInt8) (command : SetupCommand)
    (agreement : Agreement) :
    (n.withEvents events).accept peer flow command agreement =
      (n.accept peer flow command agreement).withEvents events := by
  rw [accept_eq, accept_eq]
  dsimp only
  rw [schedule_withEvents, stations_withEvents]
  obtain ⟨result, schedule⟩ :=
    n.schedule.schedule ⟨peer, flow⟩ agreement command n.stations.servicePeriod?
  cases result with
  | error => exact reject_withEvents (n := { n with schedule }) peer flow agreement
  | ok => exact respond_withEvents (n := { n with schedule, stations := _ }) _ _

theorem answerRequest_withEvents (peer : MacAddress) (flow : UInt8) (command : SetupCommand)
    (agreement : Agreement) (state : AgreementState) :
    (n.withEvents events).answerRequest peer flow command agreement state =
      (n.answerRequest peer flow command agreement state).withEvents events := by
  cases state
  case noAgreement =>
    simp only [answerRequest, consider, stations_withEvents]
    cases n.stations.slot? ⟨peer, flow⟩ with
    | none => rfl
    | some slot =>
        cases command
        case request => exact accept_withEvents (n := n.setState peer flow _) ..
        case suggest => exact accept_withEvents (n := n.setState peer flow _) ..
        case demand => exact reject_withEvents (n := n.setState peer flow _) ..
        case grouping => exact reject_withEvents (n := n.setState peer flow _) ..
        all_goals rfl
  case agreement =>
    unfold answerRequest
    dsimp only
    rw [answers_withEvents]
    split
    · rfl
    · exact reject_withEvents peer flow agreement
  all_goals rfl

theorem deferCommands_withEvents (f : Requester → Requester) :
    ((n.withEvents events).withOwn f).deferCommands =
      (n.withOwn f).deferCommands.withEvents events := by
  unfold deferCommands withOwn
  dsimp only
  rw [link_withEvents]
  split <;> rfl

theorem handleAnswer_withEvents (command : SetupCommand) :
    (n.withEvents events).handleAnswer event command =
      (n.handleAnswer event command).withEvents events := by
  unfold handleAnswer
  dsimp only
  rw [own_withEvents]
  split
  · cases command
    case accept => exact deferCommands_withEvents _
    all_goals rfl
  · rfl

theorem handleTeardown_withEvents :
    (n.withEvents events).handleTeardown event = (n.handleTeardown event).withEvents events := by
  unfold handleTeardown
  rw [requester_withEvents, isBssid_withEvents, responder_withEvents, stateOf_withEvents]
  split
  case isTrue =>
    unfold handleOwnTeardown
    rw [own_withEvents]
    dsimp only
    split
    · rfl
    · exact deferCommands_withEvents _
  case isFalse =>
    split
    case isTrue =>
      cases n.stateOf event.source event.flow with
      | none => rfl
      | some state =>
          cases state
          case noAgreement => rfl
          all_goals exact conclude_withEvents .cleared
    case isFalse => rfl

theorem handleEvent_withEvents (event : Event) :
    (n.withEvents events).handleEvent event =
      ((n.handleEvent event).1.withEvents events, (n.handleEvent event).2) := by
  unfold handleEvent
  cases event.body with
  | teardown => exact congrArg (·, false) handleTeardown_withEvents
  | setup command agreement =>
      dsimp only
      rw [responder_withEvents, requester_withEvents, stations_withEvents]
      split
      · split
        · cases n.stations.ensure event.source with
          | error => rfl
          | ok stations =>
              exact congrArg (·, false) (answerRequest_withEvents (n := { n with stations }) ..)
        · rfl
      · split
        · exact congrArg (·, false) (handleAnswer_withEvents command)
        · rfl

/-! ### Single events -/

theorem crowdedOut_opened : CrowdedOut event (n.opened source) ↔ CrowdedOut event n :=
  ⟨fun crowded => ⟨crowded.asks, crowded.responds, crowded.unknown, crowded.full⟩,
    fun crowded => ⟨crowded.asks, crowded.responds, crowded.unknown, crowded.full⟩⟩

/-- An event that is crowded out changes nothing and is to be tried again. -/
theorem handleEvent_of_crowdedOut (crowded : CrowdedOut event n) : n.handleEvent event = (n, true) := by
  obtain ⟨asks, responds, unknown, full⟩ := crowded
  have refused : n.stations.ensure event.source = .error .resourceExhausted := by
    rw [StationTable.ensure, unknown, if_neg Bool.false_ne_true, if_pos full]
  cases body : event.body with
  | teardown => simp [Event.asks, Event.command?, body] at asks
  | setup command agreement =>
      rw [asks_of_body body] at asks
      simp only [handleEvent, body, asks, responds, refused, if_true]

/-- Every other event is done with. -/
theorem done_of_not_crowdedOut (placed : ¬ CrowdedOut event n) : (n.handleEvent event).2 = false := by
  cases body : event.body with
  | teardown => rw [handleEvent_of_teardown body]
  | setup command agreement =>
      cases asks : command.isRequest with
      | false => rw [handleEvent_of_answer body asks]
      | true =>
          simp only [handleEvent, body, asks, if_true]
          split
          case isFalse => rfl
          case isTrue responds =>
            cases ensured : n.stations.ensure event.source with
            | ok => rfl
            | error =>
                obtain ⟨unknown, full, -⟩ := StationTable.ensure_eq_error_iff.mp ensured
                exact absurd ⟨(asks_of_body body).trans asks, responds, unknown, full⟩ placed

/-- An event leaves at most an answer or commands to be done. -/
theorem tasks_handleEvent (distinct : n.stations.Distinct) (event : Event) :
    ∃ extra, (n.handleEvent event).1.tasks = n.tasks ++ extra ∧
      ∀ task ∈ extra, task.isReply = true := by
  cases replied_handleEvent distinct event with
  | silent tasks chipOnly =>
      refine ⟨_, tasks, fun task member => ?_⟩
      rw [chipOnly task member]
      rfl
  | inFrame _ tasks => exact ⟨_, tasks, List.forall_mem_singleton.mpr rfl⟩
  | waits _ tasks => exact ⟨[], tasks.trans (List.append_nil _).symm, by simp⟩

/-! ### The whole handling -/

/-- Which events are still queued makes no difference to an event that is taken up. -/
theorem opened_handleEvent {left : EventQueue}
    (others : left.toList.filter (!·.passes source none) =
      n.events.toList.filter (!·.passes source none)) :
    (Negotiation.handleEvent event { n with events := left }).1.opened source =
      (Negotiation.handleEvent event (n.opened source)).1 := by
  have kept : (Negotiation.handleEvent event { n with events := left }).1.events = left :=
    congrArg Surroundings.events (surroundings_handleEvent event { n with events := left })
  have sameQueue : n.opened source =
      ({ n with events := left } : Negotiation).withEvents ⟨left.toList.filter (!·.passes source none)⟩ := by
    rw [others]
    rfl
  rw [sameQueue, handleEvent_withEvents, opened, kept]
  rfl

/-- Taking one event after the other out of the queue comes to handling all that are due. -/
theorem drains_handleAll (source : Option MacAddress) (n : Negotiation) :
    ∃ processed,
      Drains source n processed (handleAll (n.due source) (n.opened source)).2
        (handleAll (n.due source) (n.opened source)).1 := by
  generalize isDue : n.due source = due
  induction due generalizing n with
  | nil =>
      obtain ⟨empty, others⟩ := EventQueue.pop?_eq_none_of_filter isDue
      have same : n.opened source = n := by rw [opened, others]
      rw [same]
      exact ⟨[], .done empty⟩
  | cons event rest inductionHypothesis =>
      obtain ⟨left, popped, restDue, others⟩ := EventQueue.exists_pop?_of_filter isDue
      rw [handleAll]
      dsimp only
      by_cases crowded : CrowdedOut event n
      case pos =>
        have sameOpened : ({ n with events := left } : Negotiation).opened source = n.opened source := by
          simp only [opened, others]
        obtain ⟨processed, drains⟩ := inductionHypothesis { n with events := left } restDue
        rw [sameOpened] at drains
        rw [handleEvent_of_crowdedOut (crowdedOut_opened.mpr crowded)]
        exact ⟨processed, .putsAside popped crowded drains⟩
      case neg =>
        let m := (Negotiation.handleEvent event { n with events := left }).1
        have kept : m.events = left :=
          congrArg Surroundings.events (surroundings_handleEvent event { n with events := left })
        have mDue : m.due source = rest := by rw [due, kept, restDue]
        obtain ⟨processed, drains⟩ := inductionHypothesis m mDue
        rw [opened_handleEvent others] at drains
        rw [done_of_not_crowdedOut (mt crowdedOut_opened.mp crowded)]
        exact ⟨event :: processed, .handles popped crowded drains⟩

theorem due_of_popped (popped : n.events.pop? source none = some (event, events)) :
    n.due source = event :: ({ n with events } : Negotiation).due source := by
  cases isDue : n.due source with
  | nil =>
      rw [(EventQueue.pop?_eq_none_of_filter isDue).1] at popped
      cases popped
  | cons first rest =>
      obtain ⟨left, first, restDue, -⟩ := EventQueue.exists_pop?_of_filter isDue
      cases popped.symm.trans first
      exact congrArg (event :: ·) restDue.symm

theorem due_handleEvent (event : Event) : (n.handleEvent event).1.due source = n.due source := by
  rw [due, show (n.handleEvent event).1.events = n.events from
    congrArg Surroundings.events (surroundings_handleEvent event n), due]

variable {processed aside : List Event}

namespace Drains

/-- The events that are due are processed or put aside, each of them once and in order. -/
theorem splits (drains : Drains source n processed aside m) :
    (processed ++ aside).Perm (n.due source) ∧
      processed.Sublist (n.due source) ∧ aside.Sublist (n.due source) := by
  induction drains with
  | @done n empty =>
      have nothingDue : n.due source = [] := by
        cases isDue : n.due source with
        | nil => rfl
        | cons event rest =>
            obtain ⟨left, popped, -⟩ := EventQueue.exists_pop?_of_filter isDue
            cases empty.symm.trans popped
      simp [nothingDue]
  | handles popped placed rest inductionHypothesis =>
      rw [due_handleEvent] at inductionHypothesis
      obtain ⟨all, inOrder, asideInOrder⟩ := inductionHypothesis
      rw [due_of_popped popped]
      exact ⟨all.cons _, inOrder.cons_cons _, asideInOrder.cons _⟩
  | putsAside popped crowded rest inductionHypothesis =>
      obtain ⟨all, inOrder, asideInOrder⟩ := inductionHypothesis
      rw [due_of_popped popped]
      exact ⟨List.perm_middle.trans (all.cons _), inOrder.cons _, asideInOrder.cons_cons _⟩

/-- All that is left to be done on the way are answers and commands. -/
theorem replies (drains : Drains source n processed aside m) (distinct : n.stations.Distinct) :
    ∃ extra, m.tasks = n.tasks ++ extra ∧ ∀ task ∈ extra, task.isReply = true := by
  induction drains with
  | done => exact ⟨[], (List.append_nil _).symm, by simp⟩
  | @handles n m event events _ _ popped placed rest inductionHypothesis =>
      obtain ⟨first, now, firstReplies⟩ :=
        tasks_handleEvent (n := { n with events }) distinct event
      obtain ⟨later, after, laterReplies⟩ :=
        inductionHypothesis (confined_handleEvent (n := { n with events }) distinct event).distinct
      refine ⟨first ++ later, ?_, List.forall_mem_append.mpr ⟨firstReplies, laterReplies⟩⟩
      rw [after, now, List.append_assoc]
  | putsAside popped crowded rest inductionHypothesis => exact inductionHypothesis distinct

/-- Nothing that is done on the way asks for another try. -/
theorem tasks (drains : Drains source n processed aside m) (distinct : n.stations.Distinct) :
    ∃ extra, m.tasks = n.tasks ++ extra ∧ .retryEvents ∉ extra := by
  obtain ⟨extra, grown, replies⟩ := drains.replies distinct
  exact ⟨extra, grown, fun member => by cases replies _ member⟩

/-- There is only one way to go. -/
theorem unique {processed' aside' : List Event} {m' : Negotiation}
    (drains : Drains source n processed aside m) (other : Drains source n processed' aside' m') :
    processed = processed' ∧ aside = aside' ∧ m = m' := by
  induction drains generalizing processed' aside' m' with
  | done empty =>
      cases other with
      | done => exact ⟨rfl, rfl, rfl⟩
      | handles popped => cases empty.symm.trans popped
      | putsAside popped => cases empty.symm.trans popped
  | handles popped placed rest inductionHypothesis =>
      cases other with
      | done empty => cases empty.symm.trans popped
      | handles poppedToo _ restToo =>
          cases popped.symm.trans poppedToo
          obtain ⟨rfl, rfl, rfl⟩ := inductionHypothesis restToo
          exact ⟨rfl, rfl, rfl⟩
      | putsAside poppedToo crowded =>
          cases popped.symm.trans poppedToo
          exact absurd crowded placed
  | putsAside popped crowded rest inductionHypothesis =>
      cases other with
      | done empty => cases empty.symm.trans popped
      | handles poppedToo placed =>
          cases popped.symm.trans poppedToo
          exact absurd crowded placed
      | putsAside poppedToo _ restToo =>
          cases popped.symm.trans poppedToo
          obtain ⟨rfl, rfl, rfl⟩ := inductionHypothesis restToo
          exact ⟨rfl, rfl, rfl⟩

end Drains

/-- What a handling makes of the state that its last event leaves. -/
theorem handleEvents_of_drains (drains : Drains source n processed aside m) :
    n.handleEvents source =
      { m with
        events := ⟨n.events.toList.filter (!·.passes source none) ++ aside⟩
        tasks := m.tasks ++ if aside = [] then [] else [.retryEvents] } := by
  obtain ⟨_, all⟩ := drains_handleAll source n
  obtain ⟨-, rfl, rfl⟩ := drains.unique all
  have kept : (handleAll (n.due source) (n.opened source)).1.events = (n.opened source).events :=
    congrArg Surroundings.events (surroundings_handleAll _ _)
  have others : n.events.toList.filter (!·.passes source none) =
      (handleAll (n.due source) (n.opened source)).1.events.toList := by
    rw [kept, opened]
  rw [others]
  generalize handled : handleAll (n.due source) (n.opened source) = result
  obtain ⟨m, aside⟩ := result
  rw [due, opened] at handled
  simp only [handleEvents, handled]
  cases aside with
  | nil => simp
  | cons => rfl

/-- Every handling comes to an end. Of the events that are due, each is processed once and in order
or, if it is crowded out when its turn comes, put aside. What is left queued are the events that were
not due, in their order, and behind them those put aside, in theirs; and another try is asked for,
after everything else, exactly if there are any. -/
theorem handleEvents_conserves (settings : Settings) (operations : List Operation)
    (source : Option MacAddress) :
    let n := run (new settings) operations
    (∃ processed aside m, Drains source n processed aside m) ∧
      ∀ processed aside m, Drains source n processed aside m →
        (processed ++ aside).Perm (n.due source) ∧
          processed.Sublist (n.due source) ∧ aside.Sublist (n.due source) ∧
          n.handleEvents source =
            { m with
              events := ⟨n.events.toList.filter (!·.passes source none) ++ aside⟩
              tasks := m.tasks ++ if aside = [] then [] else [.retryEvents] } ∧
          ∃ extra, m.tasks = n.tasks ++ extra ∧ .retryEvents ∉ extra := by
  intro n
  have orderly : n.Orderly := orderly_reached settings operations n (run_mem_reached _ operations)
  refine ⟨?_, fun processed aside m drains => ?_⟩
  · obtain ⟨processed, drains⟩ := drains_handleAll source n
    exact ⟨processed, _, _, drains⟩
  · obtain ⟨all, inOrder, asideInOrder⟩ := drains.splits
    exact ⟨all, inOrder, asideInOrder, handleEvents_of_drains drains, drains.tasks orderly.distinct⟩

def onePlace : Settings := { responder := true, maximumStations := 1 }

/-- A second station asks while the first one holds the only place, and then the first one leaves. -/
def lateRoom : List Operation :=
  [.receiveSetup ⟨2, 0, 0, 0, 0, 1⟩ 1 (requestElement 0 4 1024), .handleEvents none,
    .receiveElement ⟨2, 0, 0, 0, 0, 2⟩ (requestElement 0 4 1024),
    .receiveTeardown ⟨2, 0, 0, 0, 0, 1⟩ 0]

/-- The teardown is processed although it stands behind the request, which comes too early and is
tried again. -/
theorem handleEvents_conserves_lateRoom :
    let n := run (new onePlace) lateRoom
    let first : AgreementKey := ⟨⟨2, 0, 0, 0, 0, 1⟩, 0⟩
    let second : AgreementKey := ⟨⟨2, 0, 0, 0, 0, 2⟩, 0⟩
    ∃ processed aside m, Drains none n processed aside m ∧
      processed.map Event.key = [first] ∧ aside.map Event.key = [second] ∧
      (n.handleEvents none).tasks.getLast? = some .retryEvents := by
  intro n first second
  obtain ⟨⟨processed, aside, m, drains⟩, conserves⟩ :=
    handleEvents_conserves onePlace lateRoom none
  obtain ⟨all, -, -, left, -⟩ := conserves processed aside m drains
  have asideKeys : aside.map Event.key = [second] := by
    have queued : (n.handleEvents none).events.toList.map Event.key = [second] := by decide +kernel
    have nothingElse : n.events.toList.filter (!·.passes none none) = [] := by simp
    rw [left] at queued
    rwa [nothingElse] at queued
  have dueKeys : (n.due none).map Event.key = [second, first] := by decide +kernel
  have processedKeys : (second :: processed.map Event.key).Perm [second, first] := by
    have allKeys := (List.perm_append_comm.trans all).map Event.key
    rwa [List.map_append, asideKeys, dueKeys] at allKeys
  refine ⟨processed, aside, m, drains, ?_, asideKeys, by decide +kernel⟩
  exact List.perm_singleton.mp ((List.perm_cons _).mp processedKeys)

end TargetWakeTime.Negotiation
