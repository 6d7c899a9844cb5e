import TargetWakeTime.Proofs.Negotiation.Outcome

/-!
Contract: what the handling of events leaves alone.

Owns:
- the roles, the link and the queued events: no event that is taken up changes them;
- the events that are tried again, which are some of those taken up, in their order;
- the keys of the queued events, which stay distinct along every run.
-/

namespace TargetWakeTime.Negotiation

/-- What no event changes that is taken up. -/
structure Surroundings where
  requester : Bool
  responder : Bool
  link : Association
  events : EventQueue

def surroundings (n : Negotiation) : Surroundings := ⟨n.requester, n.responder, n.link, n.events⟩

/-! ### Answering -/

@[simp] theorem surroundings_collectIdle (peer : MacAddress) (n : Negotiation) :
    (n.collectIdle peer).surroundings = n.surroundings := by
  unfold collectIdle
  split
  · split <;> rfl
  · rfl

@[simp] theorem surroundings_conclude (event : Event) (conclusion : Conclusion)
    (n : Negotiation) : (n.conclude event conclusion).surroundings = n.surroundings := by
  unfold conclude
  split
  · rfl
  · cases conclusion
    case established => cases event.agreement? <;> rfl
    case cleared => exact surroundings_collectIdle _ _

@[simp] theorem surroundings_respond (answer : Event) (conclusion : Option Conclusion)
    (n : Negotiation) : (n.respond answer conclusion).surroundings = n.surroundings := by
  have response := responded answer conclusion n
  generalize n.respond answer conclusion = m at response ⊢
  cases response with
  | unknown => rfl
  | waiting => rfl
  | left => rfl
  | concluded => exact surroundings_conclude ..

@[simp] theorem surroundings_reject (peer : MacAddress) (flow : UInt8) (agreement : Agreement)
    (n : Negotiation) : (n.reject peer flow agreement).surroundings = n.surroundings :=
  surroundings_respond ..

@[simp] theorem surroundings_accept (peer : MacAddress) (flow : UInt8) (command : SetupCommand)
    (agreement : Agreement) (n : Negotiation) :
    (n.accept peer flow command agreement).surroundings = n.surroundings := by
  rw [accept_eq]
  dsimp only
  split
  · exact surroundings_reject ..
  · exact surroundings_respond ..

@[simp] theorem surroundings_answerRequest (peer : MacAddress) (flow : UInt8)
    (command : SetupCommand) (agreement : Agreement) (state : AgreementState) (n : Negotiation) :
    (n.answerRequest peer flow command agreement state).surroundings = n.surroundings := by
  unfold answerRequest
  split
  case h_1 =>
    unfold consider
    split
    · rfl
    · cases command
      case request | suggest => exact surroundings_accept ..
      case demand | grouping => exact surroundings_reject ..
      all_goals rfl
  case h_6 =>
    split
    · rfl
    · exact surroundings_reject ..
  all_goals rfl

/-! ### Taking up events -/

theorem surroundings_deferCommands (n : Negotiation) :
    n.deferCommands.surroundings = n.surroundings := by
  unfold deferCommands
  split <;> rfl

theorem surroundings_handleAnswer (event : Event) (command : SetupCommand) (n : Negotiation) :
    (n.handleAnswer event command).surroundings = n.surroundings := by
  unfold handleAnswer
  dsimp only
  split
  · cases command
    case accept => exact surroundings_deferCommands _
    all_goals rfl
  · rfl

theorem surroundings_handleTeardown (event : Event) (n : Negotiation) :
    (n.handleTeardown event).surroundings = n.surroundings := by
  unfold handleTeardown
  split
  · unfold handleOwnTeardown
    dsimp only
    split
    · rfl
    · exact surroundings_deferCommands _
  · split
    · split
      · rfl
      · rfl
      · exact surroundings_conclude ..
    · rfl

@[simp] theorem surroundings_handleEvent (event : Event) (n : Negotiation) :
    (n.handleEvent event).1.surroundings = n.surroundings := by
  unfold handleEvent
  split
  · exact surroundings_handleTeardown event n
  · split
    · split
      · split
        · rfl
        · exact surroundings_answerRequest ..
      · rfl
    · split
      · exact surroundings_handleAnswer ..
      · rfl

@[simp] theorem surroundings_handleAll (events : List Event) (n : Negotiation) :
    (handleAll events n).1.surroundings = n.surroundings := by
  induction events generalizing n with
  | nil => rfl
  | cons event rest inductionHypothesis =>
      exact (inductionHypothesis _).trans (surroundings_handleEvent event n)

/-! ### Queued events -/

/-- What is tried again keeps its order. -/
theorem sublist_handleAll (events : List Event) (n : Negotiation) :
    (handleAll events n).2.Sublist events := by
  induction events generalizing n with
  | nil => exact List.Sublist.refl []
  | cons event rest inductionHypothesis =>
      unfold handleAll
      dsimp only
      split
      · exact (inductionHypothesis _).cons_cons event
      · exact (inductionHypothesis _).cons event

/-- What is tried again goes behind what was not taken up. -/
theorem events_handleEvents (source : Option MacAddress) (n : Negotiation) :
    (n.handleEvents source).events.toList =
      (n.opened source).events.toList ++ (handleAll (n.due source) (n.opened source)).2 := by
  have kept : (handleAll (n.due source) (n.opened source)).1.events = (n.opened source).events :=
    congrArg Surroundings.events (surroundings_handleAll _ _)
  rw [← kept]
  simp only [handleEvents, due, opened]
  split <;> rfl

/-- The only event that is queued is handled, and nothing stays behind if it found its place. -/
theorem handleEvents_of_single {n : Negotiation} {event : Event} (queued : n.events.toList = [event])
    (placed : ({ n with events := {} }.handleEvent event).2 = false) :
    n.handleEvents none = ({ n with events := {} }.handleEvent event).1 := by
  have kept : ({ n with events := {} }.handleEvent event).1.events = {} :=
    congrArg Surroundings.events (surroundings_handleEvent event { n with events := {} })
  generalize handled : Negotiation.handleEvent event { n with events := {} } = result at placed kept ⊢
  obtain ⟨m, again⟩ := result
  obtain rfl : again = false := placed
  unfold handleEvents
  simp only [queued, Event.passes_none, List.filter_cons_of_pos, List.filter_nil, Bool.not_true,
    Bool.false_eq_true, not_false_eq_true, List.filter_cons_of_neg, handleAll]
  rw [show Negotiation.handleEvent event { n with events := ⟨[]⟩ } = (m, false) from handled]
  show { m with events := ⟨m.events.toList ++ []⟩ } = m
  rw [kept]
  obtain ⟨⟩ := m
  cases kept
  rfl

theorem distinct_due {n : Negotiation} (distinct : n.events.Distinct)
    (source : Option MacAddress) : ((n.due source).map Event.key).Nodup :=
  EventQueue.distinct_filter distinct

theorem distinct_handleEvents {n : Negotiation} (distinct : n.events.Distinct)
    (source : Option MacAddress) : (n.handleEvents source).events.Distinct := by
  have reordered : ((n.opened source).events.toList ++ n.due source).Perm n.events.toList :=
    List.perm_append_comm.trans (List.filter_append_perm _ _)
  have whole : (((n.opened source).events.toList ++ n.due source).map Event.key).Nodup :=
    (reordered.map Event.key).nodup_iff.mpr distinct
  rw [EventQueue.Distinct, events_handleEvents]
  exact whole.sublist (((sublist_handleAll _ _).append_left _).map Event.key)

theorem surroundings_takeAnswer (peer : MacAddress) (n : Negotiation) :
    (n.takeAnswer peer).2.surroundings = n.surroundings := by
  have taken := answerTaken peer n
  generalize n.takeAnswer peer = result at taken ⊢
  cases taken with
  | nothing => rfl
  | established => exact surroundings_conclude ..
  | cleared => exact surroundings_conclude ..
  | kept => rfl
  | refused => rfl

private theorem events_takeAnswer (peer : MacAddress) (n : Negotiation) :
    (n.takeAnswer peer).2.events = n.events :=
  congrArg Surroundings.events (surroundings_takeAnswer peer n)

/-- Along every run at most one event of each source and flow is queued. -/
theorem distinct_apply {n : Negotiation} (distinct : n.events.Distinct) (operation : Operation) :
    (operation.apply n).events.Distinct := by
  have result := applied n operation
  generalize operation.apply n = m at result ⊢
  cases result with
  | untouched same =>
      have sameEvents : m.events = n.events := congrArg ResponderPart.events same
      rwa [sameEvents]
  | queued _ same =>
      have latest : m.events = n.events.pushLatest _ := congrArg ResponderPart.events same
      rw [latest]
      exact EventQueue.distinct_pushLatest distinct
  | noted _ _ same =>
      have latest : m.events = n.events.pushLatest _ := congrArg ResponderPart.events same
      rw [latest]
      exact EventQueue.distinct_pushLatest distinct
  | handled source => exact distinct_handleEvents distinct source
  | taken =>
      rw [events_takeAnswer]
      exact distinct
  | forgotten peer same =>
      have sameEvents : m.events = n.events := congrArg ResponderPart.events same
      rwa [sameEvents]
  | purged source => exact EventQueue.distinct_purge distinct
  | cleared => exact EventQueue.distinct_empty

theorem distinct_reached (settings : Settings) (operations : List Operation) :
    ∀ n ∈ reached (new settings) operations, n.events.Distinct :=
  invariant_of_apply (·.events.Distinct) (fun _ operation distinct => distinct_apply distinct operation)
    EventQueue.distinct_empty

theorem mem_events_handleEvents {n : Negotiation} {event : Event} {source : Option MacAddress}
    (member : event ∈ (n.handleEvents source).events.toList) : event ∈ n.events.toList := by
  rw [events_handleEvents] at member
  rcases List.mem_append.mp member with kept | again
  · exact (List.mem_filter.mp kept).1
  · exact (List.mem_filter.mp ((sublist_handleAll _ _).subset again)).1

section

variable {n : Negotiation} {operation : Operation} {property : Event → Prop}

/-- If frames bring in only events that have a property, and so does whoever queues an event, then all
queued events have it. -/
theorem events_apply (framed : ∀ event, FromFrame event → property event)
    (queued : ∀ event, operation = .queueEvent event → property event)
    (all : ∀ event ∈ n.events.toList, property event) :
    ∀ event ∈ (operation.apply n).events.toList, property event := by
  have pushed {fresh : Event} {events : EventQueue} (latest : events = n.events.pushLatest fresh)
      (fits : property fresh) : ∀ event ∈ events.toList, property event := by
    intro event member
    rw [latest] at member
    rcases EventQueue.mem_or_eq_of_mem_pushLatest member with old | rfl
    · exact all event old
    · exact fits
  by_cases fromFrames : operation.fromFrames = true
  case neg =>
    cases operation
    case queueEvent fresh => exact pushed rfl (queued fresh rfl)
    all_goals exact absurd rfl fromFrames
  case pos =>
    have result := applied n operation
    generalize operation.apply n = m at result ⊢
    cases result with
    | untouched same =>
        rw [show m.events = n.events from congrArg ResponderPart.events same]
        exact all
    | queued brings same =>
        exact pushed (congrArg ResponderPart.events same) (framed _ (brings fromFrames))
    | noted brings _ same => exact pushed (congrArg ResponderPart.events same) (framed _ brings)
    | handled source => exact fun event member => all event (mem_events_handleEvents member)
    | taken =>
        rw [events_takeAnswer]
        exact all
    | forgotten peer same =>
        rw [show m.events = n.events from congrArg ResponderPart.events same]
        exact all
    | purged => exact fun event member => all event (List.mem_filter.mp member).1
    | cleared => exact fun event member => by cases member

/-- An operation that brings in events from frames only lets no other ones into the queue. -/
theorem fromFrame_apply (framed : ∀ event ∈ n.events.toList, FromFrame event)
    (fromFrames : operation.fromFrames = true) :
    ∀ event ∈ (operation.apply n).events.toList, FromFrame event :=
  events_apply (fun _ => id) (fun _ queues => by rw [queues] at fromFrames; cases fromFrames) framed

end

end TargetWakeTime.Negotiation
