import TargetWakeTime.Proofs.Negotiation.Surroundings

/-!
Contract: which of the events that a run queues are still queued.

Owns:
- the event that an operation queues, and the log of all events that a run queues;
- what an operation does to the queue: it puts its own event last in place of an older one of the
  same source and flow, or it lets nothing in;
- that all along every run at most one event of each source and flow is queued, the newest one.

A handling puts the events that find the table full back behind all others, and takes no older one
of their source and flow out then. It does not have to: all that it puts back was queued before, and
nothing is queued while it runs.
-/

namespace TargetWakeTime.Negotiation

variable {n : Negotiation} {operation : Operation} {event : Event} {earlier : List Event}
  {q : EventQueue}

/-! ### What an operation queues -/

/-- The event that an operation queues. A malformed element brings none, and neither does a teardown
of a station that is not known. -/
def Operation.queued? (n : Negotiation) : Operation → Option Event
  | receiveElement source element | receiveSetup source _ element =>
      (Agreement.parse element).toOption.map (.setup source)
  | receiveTeardown source flow =>
      if (n.receiveTeardown source flow).1.isOk then some (.teardown source flow) else none
  | queueEvent event => some event
  | _ => none

/-- All events that a run queues, oldest first. -/
def log (n : Negotiation) (operations : List Operation) : List Event :=
  (steps n operations).filterMap fun step => step.2.queued? step.1

theorem log_cons (n : Negotiation) (operation : Operation) (rest : List Operation) :
    log n (operation :: rest) =
      (operation.queued? n).toList ++ log (operation.apply n) rest := by
  rw [log, steps, Runs.steps, List.filterMap_cons]
  cases operation.queued? n <;> rfl

theorem events_of_queued (queued : operation.queued? n = some event) :
    (operation.apply n).events = n.events.pushLatest event := by
  cases operation
  case receiveElement source element =>
    have received := elementReceived source element n
    rw [Operation.apply]
    generalize n.receiveElement source element = result at received ⊢
    cases received with
    | malformed unread => simp [Operation.queued?, unread, Except.toOption] at queued
    | queued read =>
        obtain rfl : Event.setup source _ = event := by
          simpa [Operation.queued?, read, Except.toOption] using queued
        rfl
  case receiveSetup source token element =>
    have received := setupReceived source token element n
    rw [Operation.apply]
    generalize n.receiveSetup source token element = result at received ⊢
    cases received with
    | malformed unread => simp [Operation.queued?, unread, Except.toOption] at queued
    | crowded read | noted read | plain read =>
        obtain rfl : Event.setup source _ = event := by
          simpa [Operation.queued?, read, Except.toOption] using queued
        rfl
  case receiveTeardown source flow =>
    have received := teardownReceived source flow n
    rw [Operation.queued?] at queued
    rw [Operation.apply]
    generalize n.receiveTeardown source flow = result at received queued ⊢
    cases received with
    | unknown => cases queued
    | queued =>
        cases queued
        rfl
  case queueEvent other =>
    cases queued
    rfl
  all_goals cases queued

/-- Whether an operation takes events out of the queue. -/
def Operation.sorts : Operation → Bool
  | handleEvents _ | purgeEvents _ | clear => true
  | _ => false

/-- An operation that queues nothing and takes nothing out leaves the queue as it is. -/
theorem events_of_silent (silent : operation.queued? n = none)
    (keeps : operation.sorts = false) : (operation.apply n).events = n.events := by
  by_cases own : operation.isOwn = true
  · exact congrArg ResponderPart.events (responderPart_apply own n)
  · cases operation
    case receiveElement source element =>
      have received := elementReceived source element n
      rw [Operation.apply]
      generalize n.receiveElement source element = result at received ⊢
      cases received with
      | malformed => rfl
      | queued read => simp [Operation.queued?, read, Except.toOption] at silent
    case receiveSetup source token element =>
      have received := setupReceived source token element n
      rw [Operation.apply]
      generalize n.receiveSetup source token element = result at received ⊢
      cases received with
      | malformed => rfl
      | crowded read | noted read | plain read =>
          simp [Operation.queued?, read, Except.toOption] at silent
    case receiveTeardown source flow =>
      have received := teardownReceived source flow n
      rw [Operation.queued?] at silent
      rw [Operation.apply]
      generalize n.receiveTeardown source flow = result at received silent ⊢
      cases received with
      | unknown => rfl
      | queued => cases silent
    case queueEvent => cases silent
    case takeAnswer peer => exact congrArg Surroundings.events (surroundings_takeAnswer peer n)
    case takeResponseElement peer =>
      rw [Operation.apply, takeResponseElement_snd]
      exact congrArg Surroundings.events (surroundings_takeAnswer peer n)
    case removeStation peer =>
      have removed := stationRemoved peer n
      rw [Operation.apply]
      generalize n.removeStation peer = result at removed ⊢
      cases removed <;> rfl
    case handleEvents | purgeEvents | clear => cases keeps
    all_goals exact absurd rfl own

/-- An operation that queues nothing lets nothing into the queue. -/
theorem mem_events_of_silent (silent : operation.queued? n = none)
    (member : event ∈ (operation.apply n).events.toList) : event ∈ n.events.toList := by
  cases keeps : operation.sorts with
  | false => rwa [events_of_silent silent keeps] at member
  | true =>
      cases operation
      case handleEvents source => exact mem_events_handleEvents member
      case purgeEvents source => exact (List.mem_filter.mp member).1
      case clear => cases member
      all_goals cases keeps

/-! ### The newest events -/

/-- Of each source and flow at most one event is queued, the newest one of all that came earlier. -/
structure NewestOnly (earlier : List Event) (q : EventQueue) : Prop where
  distinct : q.Distinct
  newest : ∀ event ∈ q.toList, (earlier.filter (·.key = event.key)).getLast? = some event

theorem newestOnly_pushLatest (newestOnly : NewestOnly earlier q) (event : Event) :
    NewestOnly (earlier ++ [event]) (q.pushLatest event) where
  distinct := EventQueue.distinct_pushLatest newestOnly.distinct
  newest other member := by
    rcases EventQueue.mem_pushLatest.mp member with ⟨old, apart⟩ | rfl
    · simpa [Ne.symm apart] using newestOnly.newest other old
    · simp

/-- What leaves the queue, and in which order the others stand, does not matter. -/
theorem NewestOnly.of_subset {p : EventQueue} (newestOnly : NewestOnly earlier q)
    (distinct : p.Distinct) (subset : ∀ event ∈ p.toList, event ∈ q.toList) :
    NewestOnly earlier p :=
  ⟨distinct, fun event member => newestOnly.newest event (subset event member)⟩

theorem newestOnly_apply (newestOnly : NewestOnly earlier n.events) (operation : Operation) :
    NewestOnly (earlier ++ (operation.queued? n).toList) (operation.apply n).events := by
  cases queued : operation.queued? n with
  | some event =>
      rw [events_of_queued queued]
      exact newestOnly_pushLatest newestOnly event
  | none =>
      rw [Option.toList_none, List.append_nil]
      exact newestOnly.of_subset (distinct_apply newestOnly.distinct operation)
        fun _ => mem_events_of_silent queued

/-! ### Runs -/

theorem newestOnly_run_of (newestOnly : NewestOnly earlier n.events) (operations : List Operation) :
    NewestOnly (earlier ++ n.log operations) (run n operations).events := by
  induction operations generalizing n earlier with
  | nil => simpa [Negotiation.log, steps, Runs.steps, run] using newestOnly
  | cons operation rest inductionHypothesis =>
      rw [log_cons, ← List.append_assoc]
      exact inductionHypothesis (newestOnly_apply newestOnly operation)

/-- After every run at most one event of each source and flow is queued, and it is the last one that
was queued of them. And every event that is queued is the newest in the queue then. -/
theorem newestOnly_run (settings : Settings) (operations : List Operation) :
    NewestOnly (log (new settings) operations) (run (new settings) operations).events ∧
      ∀ step ∈ steps (new settings) operations, ∀ event,
        step.2.queued? step.1 = some event →
          (step.2.apply step.1).events.toList.getLast? = some event := by
  refine ⟨?_, fun step _ event queued => ?_⟩
  · have start : NewestOnly [] (new settings).events :=
      ⟨EventQueue.distinct_empty, fun event member => by cases member⟩
    exact newestOnly_run_of start operations
  · rw [events_of_queued queued]
    exact List.getLast?_concat

end TargetWakeTime.Negotiation
