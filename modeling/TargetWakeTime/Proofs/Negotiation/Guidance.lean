import TargetWakeTime.Proofs.Negotiation.Conservation
import TargetWakeTime.Proofs.Negotiation.OwnFlows
import TargetWakeTime.Proofs.Negotiation.Recency

/-!
Contract: who can move the own flows of an interface that is joined to an access point.

Owns:
- frames from elsewhere, and the part of the state that they have no business with;
- answers that are heeded, whoever sent them: the flow only has to be under consideration;
- that two runs which differ in frames from elsewhere come to the same own flows if all answers that
  either of them heeds come from the access point, and that this is exactly what keeps foreign
  events from the own flows.

A teardown is looked at twice, when it comes in and when it is taken up, and counts only if it comes
from the access point. An answer is not looked at.
-/

namespace TargetWakeTime

/-- An access point guides an interface by its answers and teardowns. -/
def Event.guides (peer : MacAddress) (e : Event) : Bool := e.source == peer && !e.asks

namespace Negotiation

variable {n m : Negotiation} {peer : MacAddress} {event : Event} {operation : Operation}

/-! ### Frames and answers -/

/-- Who sent the frame that an operation takes in. -/
def Operation.sender? : Operation → Option MacAddress
  | receiveElement source _ | receiveSetup source .. | receiveTeardown source _ => some source
  | _ => none

/-- Whether an operation takes in a frame from elsewhere. -/
def Operation.strays (peer : MacAddress) (operation : Operation) : Bool :=
  operation.sender?.any (· != peer)

/-- Whether the link stays with the access point. -/
def Operation.stays (peer : MacAddress) : Operation → Bool
  | relink link => link.bssid == some peer
  | _ => true

/-- A run without the frames from elsewhere. -/
def heard (peer : MacAddress) (operations : List Operation) : List Operation :=
  operations.filter fun operation => !operation.strays peer

/-- Whether an event is an answer that counts when it is taken up: its flow is under consideration. -/
def heeds (event : Event) (n : Negotiation) : Bool :=
  n.requester && event.command?.any (!·.isRequest) && (n.own.state event.flow).isConsidering

/-- All answers that an operation heeds come from the access point. -/
def StepHeedsOnly (peer : MacAddress) (n : Negotiation) (operation : Operation) : Prop :=
  ∀ taken ∈ operation.handlings n, taken.2.heeds taken.1 = true → taken.1.source = peer

instance : Decidable (StepHeedsOnly peer n operation) :=
  inferInstanceAs (Decidable (∀ taken ∈ _, _))

/-- An interface that asks is joined to an access point. -/
structure Joined (peer : MacAddress) (n : Negotiation) : Prop where
  requester : n.requester = true
  bssid : n.link.bssid = some peer

/-- The side of a state that is about the own flows. -/
structure OwnSide where
  requester : Bool
  link : Association
  own : Requester

def ownSide (n : Negotiation) : OwnSide := ⟨n.requester, n.link, n.own⟩

/-- The queued events that guide the interface. -/
def guidance (peer : MacAddress) (n : Negotiation) : List Event :=
  n.events.toList.filter (·.guides peer)

/-- What only the access point and the interface itself have a say in. -/
def ownPart (peer : MacAddress) (n : Negotiation) : OwnSide × List Event :=
  (n.ownSide, n.guidance peer)

theorem ownSide_eq (requester : n.requester = m.requester) (link : n.link = m.link)
    (own : n.own = m.own) : n.ownSide = m.ownSide := by
  rw [ownSide, ownSide, requester, link, own]

theorem Joined.isBssid_iff (joined : n.Joined peer) {other : MacAddress} :
    n.isBssid other = true ↔ other = peer := by
  rw [isBssid, joined.bssid, beq_iff_eq, Option.some.injEq, eq_comm]

/-! ### The own flows after an event -/

theorem own_handleTeardown_of_others (others : (n.requester && n.isBssid event.source) = false) :
    (n.handleTeardown event).own = n.own := by
  rw [handleTeardown, others, if_neg Bool.false_ne_true]
  split
  · split
    · rfl
    · rfl
    · exact own_conclude ..
  · rfl

theorem own_handleOwnTeardown_congr (own : n.own = m.own) :
    (n.handleOwnTeardown event).own = (m.handleOwnTeardown event).own := by
  unfold handleOwnTeardown
  dsimp only
  rw [own]
  split
  · exact own
  · rw [own_deferCommands, own_deferCommands, withOwn, withOwn, own]

theorem own_handleAnswer_congr (own : n.own = m.own) (command : SetupCommand) :
    (n.handleAnswer event command).own = (m.handleAnswer event command).own := by
  unfold handleAnswer
  dsimp only
  rw [own]
  split
  · cases command
    case accept =>
      dsimp only
      rw [own_deferCommands, own_deferCommands, withOwn, withOwn, own]
    case reject | alternate | dictate => exact congrArg (·.setState event.flow .noAgreement) own
    all_goals exact own
  · exact own

theorem own_handleEvent_of_asks (asks : event.asks = true) (n : Negotiation) :
    (n.handleEvent event).1.own = n.own := by
  unfold handleEvent
  split
  case h_1 body => simp [Event.asks, Event.command?, body] at asks
  case h_2 command agreement body =>
    rw [asks_of_body body] at asks
    rw [if_pos asks]
    split
    · split
      · rfl
      · exact own_answerRequest ..
    · rfl

/-- What an event makes of the own flows depends on the own side only. -/
theorem own_handleEvent_congr (same : n.ownSide = m.ownSide) (event : Event) :
    (n.handleEvent event).1.own = (m.handleEvent event).1.own := by
  have requester : n.requester = m.requester := congrArg OwnSide.requester same
  have link : n.link = m.link := congrArg OwnSide.link same
  have own : n.own = m.own := congrArg OwnSide.own same
  cases body : event.body with
  | teardown =>
      rw [handleEvent_of_teardown body, handleEvent_of_teardown body]
      have sameTurn : (n.requester && n.isBssid event.source) =
          (m.requester && m.isBssid event.source) := by
        rw [isBssid, isBssid, requester, link]
      cases ours : n.requester && n.isBssid event.source with
      | true =>
          rw [handleTeardown, if_pos ours, handleTeardown, if_pos (sameTurn.symm.trans ours)]
          exact own_handleOwnTeardown_congr own
      | false =>
          rw [own_handleTeardown_of_others ours,
            own_handleTeardown_of_others (sameTurn.symm.trans ours), own]
  | setup command agreement =>
      cases asks : command.isRequest with
      | true =>
          have request : event.asks = true := (asks_of_body body).trans asks
          rw [own_handleEvent_of_asks request, own_handleEvent_of_asks request, own]
      | false =>
          rw [handleEvent_of_answer body asks, handleEvent_of_answer body asks, requester]
          dsimp only
          split
          · exact own_handleAnswer_congr own command
          · exact own

/-- An event that is neither heeded nor a teardown of the access point leaves the own flows alone. -/
theorem own_handleEvent_of_unheeded (joined : n.Joined peer) (elsewhere : event.source ≠ peer)
    (unheeded : n.heeds event = false) : (n.handleEvent event).1.own = n.own := by
  cases body : event.body with
  | teardown =>
      rw [handleEvent_of_teardown body]
      apply own_handleTeardown_of_others
      rw [Bool.and_eq_false_iff]
      exact .inr (Bool.eq_false_iff.mpr fun ours => elsewhere (joined.isBssid_iff.mp ours))
  | setup command agreement =>
      cases asks : command.isRequest with
      | true => exact own_handleEvent_of_asks ((asks_of_body body).trans asks) n
      | false =>
          have idle : (n.own.state event.flow).isConsidering = false := by
            simpa [heeds, joined.requester, Event.command?, body, asks] using unheeded
          rw [handleEvent_of_answer body asks, joined.requester, if_pos rfl]
          unfold handleAnswer
          dsimp only
          rw [idle, if_neg Bool.false_ne_true]

/-- An answer to a flow under consideration ends the consideration. -/
theorem isConsidering_handleAnswer {command : SetupCommand} (answers : command.isRequest = false)
    (considering : (n.own.state event.flow).isConsidering = true) :
    ((n.handleAnswer event command).own.state event.flow).isConsidering = false := by
  unfold handleAnswer
  dsimp only
  rw [if_pos considering]
  cases command
  case accept =>
    rw [own_deferCommands]
    have accepted : (((n.own.setState event.flow .agreement).setAgreement event.flow
        event.agreement?).state event.flow).isConsidering = false := by
      rw [Requester.state_setAgreement]
      exact Requester.isConsidering_setState rfl
    exact accepted
  case reject | alternate | dictate => exact Requester.isConsidering_setState rfl
  all_goals cases answers

/-- An answer that is heeded moves the own flows. -/
theorem own_handleEvent_ne (heeded : n.heeds event = true) :
    (n.handleEvent event).1.own ≠ n.own := by
  obtain ⟨⟨requester, answers⟩, considering⟩ :
      (n.requester = true ∧ event.command?.any (!·.isRequest) = true) ∧
        (n.own.state event.flow).isConsidering = true := by
    simpa only [heeds, Bool.and_eq_true] using heeded
  intro same
  cases body : event.body with
  | teardown => simp [Event.command?, body] at answers
  | setup command agreement =>
      have answer : command.isRequest = false := by simpa [Event.command?, body] using answers
      have ended := isConsidering_handleAnswer answer considering
      rw [handleEvent_of_answer body answer, requester, if_pos rfl] at same
      rw [same, considering] at ended
      cases ended

/-! ### Batches -/

/-- An event changes nothing of the own side but the own flows. -/
theorem ownSide_handleEvent (event : Event) (n : Negotiation) :
    (n.handleEvent event).1.ownSide = ⟨n.requester, n.link, (n.handleEvent event).1.own⟩ := by
  have around := surroundings_handleEvent event n
  rw [ownSide, OwnSide.mk.injEq]
  exact ⟨congrArg Surroundings.requester around, congrArg Surroundings.link around, rfl⟩

theorem Joined.of_ownSide (joined : n.Joined peer) (requester : m.requester = n.requester)
    (link : m.link = n.link) : m.Joined peer :=
  ⟨requester.trans joined.requester, link ▸ joined.bssid⟩

theorem Joined.handleEvent (joined : n.Joined peer) (event : Event) :
    (n.handleEvent event).1.Joined peer :=
  joined.of_ownSide (congrArg OwnSide.requester (ownSide_handleEvent event n))
    (congrArg OwnSide.link (ownSide_handleEvent event n))

/-- An event that guides nobody and is heeded only if the access point sent it leaves the own flows
alone. -/
theorem own_handleEvent_of_not_guides (joined : n.Joined peer) (other : event.guides peer = false)
    (heedsOnly : n.heeds event = true → event.source = peer) :
    (n.handleEvent event).1.own = n.own := by
  by_cases elsewhere : event.source = peer
  case pos =>
    have asks : event.asks = true := by simpa [Event.guides, elsewhere] using other
    exact own_handleEvent_of_asks asks n
  case neg =>
    refine own_handleEvent_of_unheeded joined elsewhere ?_
    rw [Bool.eq_false_iff]
    exact fun heeded => elsewhere (heedsOnly heeded)

/-- Of a batch only the events count that guide the interface. -/
theorem own_handleAll_filter {events : List Event} (joined : n.Joined peer)
    (same : n.ownSide = m.ownSide)
    (heedsOnly : ∀ taken ∈ handlings events n,
      taken.2.heeds taken.1 = true → taken.1.source = peer) :
    (handleAll events n).1.own = (handleAll (events.filter (·.guides peer)) m).1.own := by
  induction events generalizing n m with
  | nil => exact congrArg OwnSide.own same
  | cons event rest inductionHypothesis =>
      have first := heedsOnly (event, n) List.mem_cons_self
      have later := fun taken member => heedsOnly taken (List.mem_cons_of_mem _ member)
      cases guides : event.guides peer with
      | true =>
          have sameNext : (n.handleEvent event).1.ownSide = (m.handleEvent event).1.ownSide := by
            rw [ownSide_handleEvent, ownSide_handleEvent, own_handleEvent_congr same,
              show n.requester = m.requester from congrArg OwnSide.requester same,
              show n.link = m.link from congrArg OwnSide.link same]
          rw [List.filter_cons_of_pos guides]
          exact inductionHypothesis (joined.handleEvent event) sameNext later
      | false =>
          have sameNext : (n.handleEvent event).1.ownSide = m.ownSide := by
            rw [ownSide_handleEvent, own_handleEvent_of_not_guides joined guides first]
            exact same
          rw [List.filter_cons_of_neg (Bool.eq_false_iff.mp guides)]
          exact inductionHypothesis (joined.handleEvent event) sameNext later

theorem asks_of_again (again : (n.handleEvent event).2 = true) : event.asks = true := by
  by_cases crowded : CrowdedOut event n
  · exact crowded.asks
  · rw [done_of_not_crowdedOut crowded] at again
    cases again

/-- Only requests are tried again. -/
theorem asks_of_mem_again {events : List Event} (member : event ∈ (handleAll events n).2) :
    event.asks = true := by
  induction events generalizing n with
  | nil => cases member
  | cons first rest inductionHypothesis =>
      unfold handleAll at member
      dsimp only at member
      split at member
      case isTrue again =>
        rcases List.mem_cons.mp member with rfl | later
        · exact asks_of_again again
        · exact inductionHypothesis later
      case isFalse => exact inductionHypothesis member

/-! ### Queues -/

private theorem filter_filter_swap (p q : Event → Bool) (events : List Event) :
    (events.filter q).filter p = (events.filter p).filter q := by
  rw [List.filter_filter, List.filter_filter]
  simp only [Bool.and_comm]

theorem guidance_queueEvent (event : Event) (n : Negotiation) :
    (n.queueEvent event).guidance peer =
      (n.guidance peer).filter (!·.passes (some event.source) (some event.flow)) ++
        [event].filter (·.guides peer) := by
  rw [guidance, queueEvent, EventQueue.pushLatest, EventQueue.toList_push, EventQueue.toList_purge,
    List.filter_append, guidance, filter_filter_swap]

/-- An event from elsewhere does not displace what the access point has sent. -/
theorem guidance_queueEvent_of_elsewhere (elsewhere : event.source ≠ peer) (n : Negotiation) :
    (n.queueEvent event).guidance peer = n.guidance peer := by
  have notGuiding : ¬ event.guides peer = true := by simp [Event.guides, elsewhere]
  have stays : (n.guidance peer).filter (!·.passes (some event.source) (some event.flow)) =
      n.guidance peer := by
    rw [List.filter_eq_self]
    intro other member
    have guides : other.source = peer := by
      have both := (List.mem_filter.mp member).2
      rw [Event.guides, Bool.and_eq_true, beq_iff_eq] at both
      exact both.1
    rw [Bool.not_eq_true', Bool.eq_false_iff, Ne, Event.passes_some_some]
    exact fun same => elsewhere ((congrArg (·.address) same).symm.trans guides)
  rw [guidance_queueEvent, stays, List.filter_cons_of_neg notGuiding, List.filter_nil,
    List.append_nil]

/-! ### Handling -/

theorem filter_due (source : Option MacAddress) (n : Negotiation) :
    (n.due source).filter (·.guides peer) = (n.guidance peer).filter (·.passes source none) := by
  rw [due, guidance, filter_filter_swap]

/-- All guidance that is due is taken up, and the rest stays. -/
theorem guidance_handleEvents (source : Option MacAddress) (n : Negotiation) :
    (n.handleEvents source).guidance peer =
      (n.guidance peer).filter (!·.passes source none) := by
  have again : (handleAll (n.due source) (n.opened source)).2.filter (·.guides peer) = [] := by
    rw [List.filter_eq_nil_iff]
    intro event member
    simp [Event.guides, asks_of_mem_again member]
  rw [guidance, events_handleEvents, List.filter_append, again, List.append_nil, opened, guidance,
    filter_filter_swap]

/-- Of all that a handling takes up, only the guidance counts. -/
theorem own_handleEvents_eq {source : Option MacAddress} (joined : n.Joined peer)
    (same : n.ownSide = m.ownSide) (heedsOnly : n.StepHeedsOnly peer (.handleEvents source)) :
    (n.handleEvents source).own =
      (handleAll ((n.guidance peer).filter (·.passes source none)) m).1.own := by
  obtain ⟨events, tasks, handled⟩ := handleEvents_eq source n
  have opened : (n.opened source).Joined peer := ⟨joined.requester, joined.bssid⟩
  rw [handled, ← filter_due]
  exact own_handleAll_filter opened same heedsOnly

theorem ownSide_handleEvents (source : Option MacAddress) (n : Negotiation) :
    (n.handleEvents source).ownSide = ⟨n.requester, n.link, (n.handleEvents source).own⟩ := by
  obtain ⟨events, tasks, handled⟩ := handleEvents_eq source n
  have around := surroundings_handleAll (n.due source) (n.opened source)
  rw [ownSide, OwnSide.mk.injEq, handled]
  exact ⟨congrArg Surroundings.requester around, congrArg Surroundings.link around, rfl⟩

/-! ### Operations -/

/-- States with the same own side differ in nothing else that the own flows depend on. -/
theorem exists_of_ownSide (same : n.ownSide = m.ownSide) :
    ∃ settings responder stations schedule events answers tasks,
      m = { n with settings, responder, stations, schedule, events, answers, tasks } := by
  obtain ⟨settings, requester, responder, stations, schedule, events, answers, own, link, tasks⟩ := m
  simp only [ownSide, OwnSide.mk.injEq] at same
  obtain ⟨rfl, rfl, rfl⟩ := same
  exact ⟨settings, responder, stations, schedule, events, answers, tasks, rfl⟩

/-- Whether an operation takes something in, or lets an answer out, and does no more. -/
def Operation.passesOn : Operation → Bool
  | receiveElement .. | receiveSetup .. | receiveTeardown .. | queueEvent _ | takeAnswer _
  | takeResponseElement _ => true
  | _ => false

theorem ownSide_apply_of_passesOn (passesOn : operation.passesOn = true) (n : Negotiation) :
    (operation.apply n).ownSide = n.ownSide := by
  have answered (peer : MacAddress) : (n.takeAnswer peer).2.ownSide = n.ownSide :=
    have around := surroundings_takeAnswer peer n
    ownSide_eq (congrArg Surroundings.requester around) (congrArg Surroundings.link around)
      (own_takeAnswer peer n)
  cases operation
  case receiveElement source element =>
    have received := elementReceived source element n
    rw [Operation.apply]
    generalize n.receiveElement source element = result at received ⊢
    cases received <;> rfl
  case receiveSetup source token element =>
    have received := setupReceived source token element n
    rw [Operation.apply]
    generalize n.receiveSetup source token element = result at received ⊢
    cases received <;> rfl
  case receiveTeardown source flow =>
    have received := teardownReceived source flow n
    rw [Operation.apply]
    generalize n.receiveTeardown source flow = result at received ⊢
    cases received <;> rfl
  case queueEvent event => rfl
  case takeAnswer peer => exact answered peer
  case takeResponseElement peer =>
    rw [Operation.apply, takeResponseElement_snd]
    exact answered peer
  all_goals cases passesOn

/-- What is done about the own flows depends on the own side only. -/
theorem ownSide_apply_of_isOwn (same : n.ownSide = m.ownSide) (own : operation.isOwn = true) :
    (operation.apply n).ownSide = (operation.apply m).ownSide := by
  obtain ⟨settings, responder, stations, schedule, events, answers, tasks, rfl⟩ :=
    exists_of_ownSide same
  cases operation
  case sendRequest agreement command =>
    simp only [Operation.apply, sendRequest]
    split
    · rfl
    · split
      · rfl
      · split <;> rfl
  case associationRequestElement =>
    simp only [Operation.apply, associationRequestElement]
    split
    · split <;> rfl
    · rfl
  case beginTeardown flow =>
    simp only [Operation.apply, beginTeardown, withOwn]
    split
    · rfl
    · split
      · rfl
      · split <;> rfl
  case authorized =>
    simp only [Operation.apply, authorized]
    split <;> rfl
  case takeTasks | relink | teardownSent | takeCommands | forceInstalled | commitInstall
      | commitUninstall => rfl
  all_goals cases own

theorem ownSide_removeStation (other : MacAddress) (n : Negotiation) :
    (n.removeStation other).2.ownSide =
      ⟨n.requester, n.link,
        if n.requester && n.isBssid other then n.own.reset (some other) else n.own⟩ := by
  unfold removeStation
  by_cases leaves : (n.requester && n.isBssid other) = true
  · rw [if_pos leaves, if_pos leaves]
    dsimp only
    split <;> rfl
  · rw [if_neg leaves, if_neg leaves]
    dsimp only
    split <;> rfl

/-- Of all operations but a handling, the own side depends on the own side only. -/
theorem ownSide_apply_congr (same : n.ownSide = m.ownSide)
    (noHandling : ∀ source, operation ≠ .handleEvents source) :
    (operation.apply n).ownSide = (operation.apply m).ownSide := by
  by_cases own : operation.isOwn = true
  · exact ownSide_apply_of_isOwn same own
  · by_cases passesOn : operation.passesOn = true
    · rw [ownSide_apply_of_passesOn passesOn, ownSide_apply_of_passesOn passesOn, same]
    · cases operation
      case handleEvents source => exact absurd rfl (noHandling source)
      case removeStation other =>
        rw [Operation.apply, Operation.apply, ownSide_removeStation, ownSide_removeStation,
          isBssid, isBssid, show n.requester = m.requester from congrArg OwnSide.requester same,
          show n.link = m.link from congrArg OwnSide.link same,
          show n.own = m.own from congrArg OwnSide.own same]
      case purgeEvents source => exact same
      case clear =>
        exact congrArg (fun side : OwnSide => { side with own := side.own.reset none }) same
      case receiveElement | receiveSetup | receiveTeardown | queueEvent | takeAnswer
          | takeResponseElement => exact absurd rfl passesOn
      all_goals exact absurd rfl own

theorem guidance_apply (keeps : operation.sorts = false) :
    (operation.apply n).guidance peer =
      ((operation.queued? n).elim n (n.queueEvent ·)).guidance peer := by
  cases queued : operation.queued? n with
  | none => exact congrArg (·.toList.filter (·.guides peer)) (events_of_silent queued keeps)
  | some event => exact congrArg (·.toList.filter (·.guides peer)) (events_of_queued queued)

/-- What the access point sends comes in whatever else is known. -/
theorem queued?_congr (nJoined : n.Joined peer) (mJoined : m.Joined peer)
    (heard : operation.strays peer = false) : operation.queued? n = operation.queued? m := by
  cases operation
  case receiveTeardown source flow =>
    have ours : source = peer := by simpa [Operation.strays, Operation.sender?] using heard
    have taken {k : Negotiation} (joined : k.Joined peer) :
        (k.receiveTeardown source flow).1.isOk = true := by
      simp only [receiveTeardown, joined.requester, joined.isBssid_iff.mpr ours, Bool.and_self,
        Bool.not_true, Bool.false_and, Bool.false_eq_true, if_false]
      rfl
    rw [Operation.queued?, Operation.queued?, if_pos (taken nJoined), if_pos (taken mJoined)]
  all_goals rfl

theorem source_of_queued? {source : MacAddress} (sender : operation.sender? = some source)
    (queued : operation.queued? n = some event) : event.source = source := by
  cases operation
  case receiveElement =>
    obtain rfl := Option.some.inj sender
    obtain ⟨agreement, -, rfl⟩ := Option.map_eq_some_iff.mp queued
    rfl
  case receiveSetup =>
    obtain rfl := Option.some.inj sender
    obtain ⟨agreement, -, rfl⟩ := Option.map_eq_some_iff.mp queued
    rfl
  case receiveTeardown =>
    obtain rfl := Option.some.inj sender
    rw [Operation.queued?] at queued
    split at queued
    · cases queued
      rfl
    · cases queued
  all_goals cases sender

/-- A frame from elsewhere changes nothing that it has no business with. -/
theorem ownPart_apply_of_strays (strays : operation.strays peer = true) :
    (operation.apply n).ownPart peer = n.ownPart peer := by
  obtain ⟨source, sender, elsewhere⟩ : ∃ source, operation.sender? = some source ∧ source ≠ peer := by
    simpa [Operation.strays, Option.any_eq_true] using strays
  have frame : operation.passesOn = true ∧ operation.sorts = false := by
    cases operation
    case receiveElement | receiveSetup | receiveTeardown => exact ⟨rfl, rfl⟩
    all_goals cases sender
  rw [ownPart, ownPart, ownSide_apply_of_passesOn frame.1, guidance_apply frame.2]
  cases queued : operation.queued? n with
  | none => rfl
  | some event =>
      have foreign : event.source ≠ peer := (source_of_queued? sender queued).trans_ne elsewhere
      rw [Option.elim_some, guidance_queueEvent_of_elsewhere foreign]

/-- Whatever else happens does the same to what is alike. -/
theorem ownPart_apply_congr (nJoined : n.Joined peer) (mJoined : m.Joined peer)
    (same : n.ownPart peer = m.ownPart peer) (heard : operation.strays peer = false)
    (nHeeds : n.StepHeedsOnly peer operation) (mHeeds : m.StepHeedsOnly peer operation) :
    (operation.apply n).ownPart peer = (operation.apply m).ownPart peer := by
  have sameSide : n.ownSide = m.ownSide := congrArg Prod.fst same
  have sameGuidance : n.guidance peer = m.guidance peer := congrArg Prod.snd same
  cases sorts : operation.sorts with
  | false =>
      have noHandling (source : Option MacAddress) : operation ≠ .handleEvents source := by
        rintro rfl
        cases sorts
      have sameQueued := queued?_congr nJoined mJoined heard
      rw [ownPart, ownPart, ownSide_apply_congr sameSide noHandling, guidance_apply sorts,
        guidance_apply sorts, sameQueued]
      cases operation.queued? m with
      | none => rw [Option.elim_none, Option.elim_none, sameGuidance]
      | some event =>
          rw [Option.elim_some, Option.elim_some, guidance_queueEvent, guidance_queueEvent,
            sameGuidance]
  | true =>
      cases operation
      case handleEvents source =>
        rw [Operation.apply, Operation.apply, ownPart, ownPart, ownSide_handleEvents,
          ownSide_handleEvents, guidance_handleEvents, guidance_handleEvents, sameGuidance,
          own_handleEvents_eq nJoined sameSide nHeeds, own_handleEvents_eq mJoined rfl mHeeds,
          sameGuidance, show n.requester = m.requester from congrArg OwnSide.requester sameSide,
          show n.link = m.link from congrArg OwnSide.link sameSide]
      case purgeEvents source =>
        have purged (k : Negotiation) : (k.purgeEvents source).2.guidance peer =
            (k.guidance peer).filter (!·.passes source none) := by
          rw [guidance, purgeEvents, EventQueue.toList_purge, guidance, filter_filter_swap]
        rw [ownPart, ownPart, ownSide_apply_congr sameSide fun _ handles => by cases handles]
        exact congrArg _ ((purged n).trans ((congrArg _ sameGuidance).trans (purged m).symm))
      case clear =>
        rw [ownPart, ownPart, ownSide_apply_congr sameSide fun _ handles => by cases handles]
        rfl
      all_goals cases sorts

/-! ### Runs -/

/-- A link that stays keeps the interface joined. -/
theorem Joined.apply (joined : n.Joined peer) (stays : operation.stays peer = true) :
    (operation.apply n).Joined peer := by
  have passed (passesOn : operation.passesOn = true) : (operation.apply n).Joined peer :=
    have same := ownSide_apply_of_passesOn passesOn n
    joined.of_ownSide (congrArg OwnSide.requester same) (congrArg OwnSide.link same)
  cases operation
  case relink link => exact ⟨joined.requester, beq_iff_eq.mp stays⟩
  case forceInstalled => exact ⟨rfl, joined.bssid⟩
  case handleEvents source =>
    exact joined.of_ownSide (congrArg OwnSide.requester (ownSide_handleEvents source n))
      (congrArg OwnSide.link (ownSide_handleEvents source n))
  case removeStation other =>
    exact joined.of_ownSide (congrArg OwnSide.requester (ownSide_removeStation other n))
      (congrArg OwnSide.link (ownSide_removeStation other n))
  case sendRequest agreement command =>
    simp only [Operation.apply, sendRequest]
    split
    · exact joined
    · split
      · exact joined
      · split <;> exact ⟨joined.requester, joined.bssid⟩
  case associationRequestElement =>
    simp only [Operation.apply, associationRequestElement]
    split
    · split <;> exact ⟨joined.requester, joined.bssid⟩
    · exact joined
  case beginTeardown flow =>
    simp only [Operation.apply, beginTeardown]
    split
    · exact joined
    · split
      · exact joined
      · split <;> exact ⟨joined.requester, joined.bssid⟩
  case authorized =>
    simp only [Operation.apply, authorized]
    split <;> exact ⟨joined.requester, joined.bssid⟩
  case takeTasks | purgeEvents | clear | teardownSent | takeCommands | commitInstall
      | commitUninstall =>
    exact ⟨joined.requester, joined.bssid⟩
  case receiveElement | receiveSetup | receiveTeardown | queueEvent | takeAnswer
      | takeResponseElement => exact passed rfl

/-- All answers that a run heeds come from the access point. -/
def HeedsOnly (peer : MacAddress) (n : Negotiation) (operations : List Operation) : Prop :=
  ∀ step ∈ steps n operations, step.1.StepHeedsOnly peer step.2

instance {operations : List Operation} : Decidable (HeedsOnly peer n operations) :=
  inferInstanceAs (Decidable (∀ step ∈ _, _))

/-- No event from elsewhere that a run takes up moves the own flows. -/
def OwnUnmoved (peer : MacAddress) (n : Negotiation) (operations : List Operation) : Prop :=
  ∀ step ∈ steps n operations, ∀ taken ∈ step.2.handlings step.1, taken.1.source ≠ peer →
    (taken.2.handleEvent taken.1).1.own = taken.2.own

theorem joined_of_mem_steps {operations : List Operation} (joined : n.Joined peer)
    (stays : ∀ operation ∈ operations, operation.stays peer = true) :
    ∀ step ∈ steps n operations, step.1.Joined peer := by
  intro step member
  have along : ∀ state ∈ reached n operations, state.Joined peer :=
    Runs.invariant_of_steps (Joined peer) (fun n operation joined stays => joined.apply stays) joined
      fun step member => stays step.2 (Runs.mem_of_mem_steps member).2
  exact along step.1 (Runs.mem_of_mem_steps member).1

theorem joined_of_mem_handlings (joined : n.Joined peer) :
    ∀ taken ∈ operation.handlings n, taken.2.Joined peer := by
  cases operation
  case handleEvents source =>
    exact invariant_of_handleEvent (Joined peer) (fun n event joined => joined.handleEvent event)
      (n := n.opened source) ⟨joined.requester, joined.bssid⟩
  all_goals exact fun taken member => by cases member

/-- Frames that are not from elsewhere are in both of two runs, and so is every change of the link. -/
theorem stays_of_heard {first second : List Operation} (same : heard peer second = heard peer first)
    (stays : ∀ operation ∈ first, operation.stays peer = true) :
    ∀ operation ∈ second, operation.stays peer = true := by
  intro operation member
  cases operation
  case relink link =>
    have inHeard : Operation.relink link ∈ heard peer first := by
      rw [← same]
      exact List.mem_filter.mpr ⟨member, rfl⟩
    exact stays _ (List.mem_filter.mp inHeard).1
  all_goals rfl

theorem ownUnmoved_iff {operations : List Operation}
    (along : ∀ step ∈ steps n operations, step.1.Joined peer) :
    OwnUnmoved peer n operations ↔ HeedsOnly peer n operations := by
  constructor
  · intro unmoved step member taken isTaken heeded
    exact Decidable.byContradiction fun elsewhere =>
      own_handleEvent_ne heeded (unmoved step member taken isTaken elsewhere)
  · intro heedsOnly step member taken isTaken elsewhere
    have joined := joined_of_mem_handlings (along step member) taken isTaken
    refine own_handleEvent_of_unheeded joined elsewhere ?_
    rw [Bool.eq_false_iff]
    exact fun heeded => elsewhere (heedsOnly step member taken isTaken heeded)

/-- Events from elsewhere leave the own flows alone exactly if all answers that are heeded come from
the access point. If so in two runs that differ only in frames from elsewhere, these come to the
same own flows. It has to be so in both: a frame may displace an answer of its sender that was queued
before. -/
theorem ownUnmoved_iff_heedsOnly {operations : List Operation} (joined : n.Joined peer)
    (stays : ∀ operation ∈ operations, operation.stays peer = true) :
    (OwnUnmoved peer n operations ↔ HeedsOnly peer n operations) ∧
      ∀ others, heard peer others = heard peer operations → HeedsOnly peer n operations →
        HeedsOnly peer n others → (run n others).own = (run n operations).own := by
  have along := joined_of_mem_steps joined stays
  refine ⟨ownUnmoved_iff along, fun others sameHeard heedsOnly othersHeed => ?_⟩
  have othersAlong := joined_of_mem_steps joined (stays_of_heard sameHeard stays)
  have same : (run n others).ownPart peer = (run n operations).ownPart peer :=
    view_run_congr (ownPart peer) (·.strays peer)
      (fun n operation => n.Joined peer ∧ n.StepHeedsOnly peer operation)
      (fun n operation _ strays => ownPart_apply_of_strays strays)
      (fun n m operation first second isHeard same =>
        ownPart_apply_congr first.1 second.1 same isHeard first.2 second.2)
      rfl sameHeard (fun step member => ⟨othersAlong step member, othersHeed step member⟩)
      (fun step member => ⟨along step member, heedsOnly step member⟩)
  exact congrArg (·.1.own) same

/-- A request, which the access point and others answer below. -/
def asked : Agreement :=
  .ofParameters .zero
    { Parameters.zero with
      requestType := { RequestType.zero with implicit := true }
      minimumDuration := 1
      mantissa := 1024 }

/-- A station at its access point. -/
def joinedStation : Negotiation :=
  { new .station with link := Association.associate ⟨2, 0, 0, 0, 0, 160⟩ {} }

/-- Once the access point has accepted, the rejection of another station changes nothing. -/
theorem ownUnmoved_iff_heedsOnly_lateRejection :
    let accepted := [Operation.sendRequest asked .request,
      .receiveSetup ⟨2, 0, 0, 0, 0, 160⟩ 1 (asked.withCommand .accept).element, .handleEvents none]
    let rejected := [Operation.receiveSetup ⟨2, 0, 0, 0, 0, 7⟩ 1 (asked.withCommand .reject).element,
      .receiveTeardown ⟨2, 0, 0, 0, 0, 7⟩ 0]
    (run joinedStation (accepted ++ [.handleEvents none])).own =
        (run joinedStation (accepted ++ rejected ++ [.handleEvents none])).own ∧
      OwnUnmoved ⟨2, 0, 0, 0, 0, 160⟩ joinedStation (accepted ++ rejected ++ [.handleEvents none]) := by
  intro accepted rejected
  have joined : joinedStation.Joined ⟨2, 0, 0, 0, 0, 160⟩ := ⟨rfl, rfl⟩
  have heedsOnly : HeedsOnly ⟨2, 0, 0, 0, 0, 160⟩ joinedStation
      (accepted ++ rejected ++ [.handleEvents none]) := by
    decide +kernel
  have stays : ∀ operation ∈ accepted ++ rejected ++ [.handleEvents none],
      operation.stays ⟨2, 0, 0, 0, 0, 160⟩ = true := by
    decide +kernel
  obtain ⟨unmoved, unchanged⟩ := ownUnmoved_iff_heedsOnly joined stays
  exact ⟨unchanged _ (by decide +kernel) heedsOnly (by decide +kernel), unmoved.mpr heedsOnly⟩

/-- While the flow is under consideration, the acceptance of another station is taken for the access
point's. -/
theorem not_ownUnmoved_foreignAcceptance :
    let accepted := Operation.receiveSetup ⟨2, 0, 0, 0, 0, 7⟩ 1 (asked.withCommand .accept).element
    heard ⟨2, 0, 0, 0, 0, 160⟩ [.sendRequest asked .request, accepted, .handleEvents none] =
        heard ⟨2, 0, 0, 0, 0, 160⟩ [.sendRequest asked .request, .handleEvents none] ∧
      (run joinedStation [.sendRequest asked .request, accepted, .handleEvents none]).own.state 0 =
        .agreement ∧
      (run joinedStation [.sendRequest asked .request, .handleEvents none]).own.state 0 =
        .considerRequest := by
  decide +kernel

end Negotiation

end TargetWakeTime
