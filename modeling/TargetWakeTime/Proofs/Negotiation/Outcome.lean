import TargetWakeTime.Proofs.EventQueue
import TargetWakeTime.Proofs.Negotiation.Run
import TargetWakeTime.Proofs.StationTable

/-!
Contract: the outcomes of single operations, case by case.

Owns:
- the ways in which a frame is taken in, an answer is let out, a peer leaves, and a waiting answer is
  taken out, each with what was found before and the state left behind;
- the state of a flow and the slot that it is read from;
- the part of the state that the responder works with, and the operations that leave it alone;
- when an acceptance that is taken out confirms what its flow holds already;
- all that an operation can change of what the responder works with.

Invariants are proved from these cases, so that no other module opens the operations.
-/

namespace TargetWakeTime.Negotiation

variable {n : Negotiation} {peer : MacAddress} {flow : UInt8}

/-! ### Reading the state of a flow -/

theorem stateOf_of_slot? {slot : Slot} (found : n.stations.slot? ⟨peer, flow⟩ = some slot) :
    n.stateOf peer flow = some slot.state := by
  obtain ⟨station, known, inSlots⟩ := Option.bind_eq_some_iff.mp found
  simp only at known inSlots
  simp [stateOf, known, Station.state, Slots.state, inSlots]

/-- Only a slot can say that there is or may come to be an agreement. -/
theorem exists_slot_of_stateOf {state : AgreementState}
    (stands : n.stateOf peer flow = some state) (busy : state ≠ .noAgreement) :
    ∃ slot, n.stations.slot? ⟨peer, flow⟩ = some slot ∧ slot.state = state := by
  obtain ⟨station, known, stateEq⟩ := Option.map_eq_some_iff.mp stands
  simp only [Station.state, Slots.state] at stateEq
  cases inSlots : station.slots.get? flow with
  | none =>
      rw [inSlots] at stateEq
      exact absurd stateEq.symm busy
  | some slot =>
      rw [inSlots] at stateEq
      exact ⟨slot, by simp [StationTable.slot?, known, inSlots], stateEq⟩

/-! ### What a frame brings in -/

/-- The ways in which the element of a frame is taken in. -/
inductive ElementReceived (source : MacAddress) (element : List UInt8) (n : Negotiation) :
    Except Error Unit × Negotiation → Prop where
  | malformed {error : Error} (unread : Agreement.parse element = .error error) :
      ElementReceived source element n (.error error, n)
  | queued {agreement : Agreement} (read : Agreement.parse element = .ok agreement) :
      ElementReceived source element n (.ok (), n.queueEvent (.setup source agreement))

theorem elementReceived (source : MacAddress) (element : List UInt8) (n : Negotiation) :
    ElementReceived source element n (n.receiveElement source element) := by
  unfold receiveElement
  split
  case h_1 error unread => exact .malformed unread
  case h_2 agreement read => exact .queued read

/-- The ways in which a setup action frame is taken in. -/
inductive SetupReceived (source : MacAddress) (token : UInt8) (element : List UInt8)
    (n : Negotiation) : Except Error Unit × Negotiation → Prop where
  | malformed {error : Error} (unread : Agreement.parse element = .error error) :
      SetupReceived source token element n (.error error, n)
  /-- The element is queued, but the station finds no place in the table. -/
  | crowded {agreement : Agreement} {error : Error}
      (read : Agreement.parse element = .ok agreement)
      (full : n.stations.ensure source = .error error) :
      SetupReceived source token element n
        (.error error, (n.queueEvent (.setup source agreement)).defer .retryEvents)
  /-- The answer is noted to go back in an action frame with this token. -/
  | noted {agreement : Agreement} {stations : StationTable}
      (read : Agreement.parse element = .ok agreement)
      (answers : n.responder = true ∧ n.isBssid source = false)
      (ensured : n.stations.ensure source = .ok stations) :
      SetupReceived source token element n
        (.ok (), { n.queueEvent (.setup source agreement) with
          stations := stations.modify source
            ({ · with dialogToken := token, actionPending := true }) }.defer (.handleEvents none))
  /-- The interface answers no requests of this station. -/
  | plain {agreement : Agreement} (read : Agreement.parse element = .ok agreement)
      (silent : n.responder = true → n.isBssid source = true) :
      SetupReceived source token element n
        (.ok (), (n.queueEvent (.setup source agreement)).defer (.handleEvents none))

theorem setupReceived (source : MacAddress) (token : UInt8) (element : List UInt8)
    (n : Negotiation) :
    SetupReceived source token element n (n.receiveSetup source token element) := by
  unfold receiveSetup receiveElement
  cases read : Agreement.parse element with
  | error error => exact .malformed read
  | ok agreement =>
      dsimp only
      split
      case isTrue answers =>
        have awaited : n.responder = true ∧ n.isBssid source = false := by
          simpa [queueEvent, isBssid] using answers
        cases ensured : n.stations.ensure source with
        | error error => simpa [queueEvent, ensured] using .crowded read ensured
        | ok stations => simpa [queueEvent, ensured] using .noted read awaited ensured
      case isFalse silent =>
        refine .plain read fun responds => ?_
        simpa [queueEvent, isBssid, responds] using silent

/-- The ways in which a teardown frame is taken in. -/
inductive TeardownReceived (source : MacAddress) (flow : UInt8) (n : Negotiation) :
    Except Error Unit × Negotiation → Prop where
  | unknown (absent : n.stations.contains source = false) :
      TeardownReceived source flow n (.error (.unknownStation source), n)
  | queued :
      TeardownReceived source flow n
        (.ok (), (n.queueEvent (.teardown source flow)).defer (.handleEvents none))

theorem teardownReceived (source : MacAddress) (flow : UInt8) (n : Negotiation) :
    TeardownReceived source flow n (n.receiveTeardown source flow) := by
  unfold receiveTeardown
  dsimp only
  split
  case isTrue nobody =>
    refine .unknown ?_
    simpa using (Bool.and_eq_true_iff.mp nobody).2
  case isFalse => exact .queued

/-! ### How an answer leaves -/

/-- The ways in which an answer is let out. In an action frame it leaves at once, and the
negotiation is concluded as it says. -/
inductive Responded (answer : Event) (conclusion : Option Conclusion) (n : Negotiation) :
    Negotiation → Prop where
  | unknown (absent : n.stations.get? answer.source = none) : Responded answer conclusion n n
  | waiting (unnoted : n.stations.note? answer.source = none) :
      Responded answer conclusion n { n with answers := n.answers.push answer }
  | left {token : UInt8} {tasks : List Task} (pending : conclusion = none)
      (noted : n.stations.note? answer.source = some token)
      (sends : ∀ agreement, answer.agreement? = some agreement →
        tasks = n.tasks ++ [.sendSetup answer.source token agreement.element answer.flow]) :
      Responded answer conclusion n
        { n with stations := n.stations.withoutNote answer.source, tasks }
  | concluded {token : UInt8} {tasks : List Task} {c : Conclusion} (ends : conclusion = some c)
      (noted : n.stations.note? answer.source = some token)
      (sends : ∀ agreement, answer.agreement? = some agreement →
        tasks = n.tasks ++ [.sendSetup answer.source token agreement.element answer.flow]) :
      Responded answer conclusion n
        ({ n with stations := n.stations.withoutNote answer.source, tasks }.conclude answer c)

theorem responded (answer : Event) (conclusion : Option Conclusion) (n : Negotiation) :
    Responded answer conclusion n (n.respond answer conclusion) := by
  unfold respond
  split
  case h_1 absent => exact .unknown absent
  case h_2 station known =>
    split
    case isTrue pending =>
      have noted : n.stations.note? answer.source = some station.dialogToken := by
        simp [StationTable.note?, known, Station.note, pending]
      cases carried : answer.agreement? with
      | none =>
          cases conclusion with
          | none => exact .left rfl noted (by simp [carried])
          | some c => exact .concluded rfl noted (by simp [carried])
      | some agreement =>
          cases conclusion with
          | none => exact .left rfl noted (by simp [carried])
          | some c => exact .concluded rfl noted (by simp [carried])
    case isFalse free =>
      exact .waiting (by simp [StationTable.note?, known, Station.note, free])

/-! ### What a leaving peer takes along -/

/-- The ways in which a peer leaves; the own flows may be reset. -/
inductive StationRemoved (peer : MacAddress) (n : Negotiation) :
    Except Error Unit × Negotiation → Prop where
  | forgotten {own : Requester} (known : n.stations.contains peer = true) :
      StationRemoved peer n (.ok (), { n with own }.dropStation peer)
  | unknown {own : Requester} (absent : n.stations.contains peer = false) :
      StationRemoved peer n (.error (.unknownStation peer), { n with own })

theorem stationRemoved (peer : MacAddress) (n : Negotiation) :
    StationRemoved peer n (n.removeStation peer) := by
  have reset : ∃ own, { n with own } =
      if n.requester && n.isBssid peer then { n with own := n.own.reset (some peer) } else n := by
    split
    · exact ⟨_, rfl⟩
    · exact ⟨n.own, rfl⟩
  obtain ⟨own, found⟩ := reset
  unfold removeStation
  dsimp only
  rw [← found]
  split
  case isTrue known => exact .forgotten known
  case isFalse absent => exact .unknown (by simpa using absent)

/-! ### The requester's own flows -/

/-- What the responder works with. -/
structure ResponderPart where
  stations : StationTable
  schedule : Schedule
  events : EventQueue
  answers : EventQueue

def responderPart (n : Negotiation) : ResponderPart :=
  ⟨n.stations, n.schedule, n.events, n.answers⟩

/-- Whether an operation is about the own flows, the link or the deferred work only. -/
def Operation.isOwn : Operation → Bool
  | takeTasks | relink _ | sendRequest .. | associationRequestElement | beginTeardown _
  | teardownSent .. | authorized | takeCommands | forceInstalled _ | commitInstall _
  | commitUninstall _ => true
  | _ => false

theorem responderPart_handleAnswer (event : Event) (command : SetupCommand) (n : Negotiation) :
    (n.handleAnswer event command).responderPart = n.responderPart := by
  unfold handleAnswer
  dsimp only
  split
  · cases command
    case accept =>
      dsimp only
      unfold deferCommands
      split <;> rfl
    all_goals rfl
  · rfl

theorem responderPart_handleOwnTeardown (event : Event) (n : Negotiation) :
    (n.handleOwnTeardown event).responderPart = n.responderPart := by
  unfold handleOwnTeardown
  dsimp only
  split
  · rfl
  · unfold deferCommands
    split <;> rfl

theorem responderPart_sendRequest (agreement : Agreement) (command : SetupCommand)
    (n : Negotiation) :
    (n.sendRequest agreement command).2.responderPart = n.responderPart := by
  unfold sendRequest
  split
  · rfl
  · split
    · rfl
    · dsimp only
      split <;> rfl

theorem responderPart_associationRequestElement (n : Negotiation) :
    n.associationRequestElement.2.responderPart = n.responderPart := by
  unfold associationRequestElement
  split
  · split <;> rfl
  · rfl

theorem responderPart_beginTeardown (flow : UInt8) (n : Negotiation) :
    (n.beginTeardown flow).2.responderPart = n.responderPart := by
  unfold beginTeardown
  split
  · rfl
  · split
    · rfl
    · dsimp only
      split <;> rfl

theorem responderPart_authorized (n : Negotiation) :
    n.authorized.responderPart = n.responderPart := by
  unfold authorized
  split <;> rfl

/-- The responder does not notice what is done about the own flows. -/
theorem responderPart_apply {operation : Operation} (own : operation.isOwn = true)
    (n : Negotiation) : (operation.apply n).responderPart = n.responderPart := by
  cases operation
  case sendRequest agreement command => exact responderPart_sendRequest agreement command n
  case associationRequestElement => exact responderPart_associationRequestElement n
  case beginTeardown flow => exact responderPart_beginTeardown flow n
  case authorized => exact responderPart_authorized n
  case takeTasks | relink | teardownSent | takeCommands | forceInstalled | commitInstall
      | commitUninstall => rfl
  all_goals cases own

/-! ### Taking out an answer -/

/-- The state without the oldest answer that waits for a station. -/
def withoutAnswer (peer : MacAddress) (n : Negotiation) : Negotiation :=
  { n with answers := ⟨n.answers.toList.eraseP (·.passes (some peer) none)⟩ }

/-- The ways in which the oldest answer for a station is taken out. -/
inductive AnswerTaken (peer : MacAddress) (n : Negotiation) :
    Except Error (Option Event) × Negotiation → Prop where
  | nothing (empty : n.answers.peek? (some peer) none = none) : AnswerTaken peer n (.ok none, n)
  | established {answer : Event} {agreement : Agreement} {state : AgreementState}
      (first : n.answers.peek? (some peer) none = some answer)
      (accepts : answer.body = .setup .accept agreement)
      (stands : n.stateOf answer.source answer.flow = some state)
      (considering : state.isConsidering = true) :
      AnswerTaken peer n
        (.ok (some answer), (n.withoutAnswer peer).conclude answer .established)
  | cleared {answer : Event} {agreement : Agreement} {state : AgreementState}
      (first : n.answers.peek? (some peer) none = some answer)
      (rejects : answer.body = .setup .reject agreement)
      (stands : n.stateOf answer.source answer.flow = some state)
      (considering : state.isConsidering = true) :
      AnswerTaken peer n (.ok (some answer), (n.withoutAnswer peer).conclude answer .cleared)
  /-- The answer leaves, and its flow stays as it is. -/
  | kept {answer : Event} (first : n.answers.peek? (some peer) none = some answer)
      (spared : ∀ agreement, answer.body ≠ .setup .accept agreement) :
      AnswerTaken peer n (.ok (some answer), n.withoutAnswer peer)
  /-- The answer is lost: its flow has no use for it. -/
  | refused {answer : Event} {error : Error}
      (first : n.answers.peek? (some peer) none = some answer)
      (useless : ∀ state, n.stateOf answer.source answer.flow = some state →
        state.isConsidering = false ∧
          ¬ (state = .agreement ∧ answer.command? = some .reject)) :
      AnswerTaken peer n (.error error, n.withoutAnswer peer)

theorem answerTaken (peer : MacAddress) (n : Negotiation) :
    AnswerTaken peer n (n.takeAnswer peer) := by
  unfold takeAnswer
  cases first : n.answers.peek? (some peer) none with
  | none => simpa [EventQueue.pop?, first] using .nothing first
  | some answer =>
      simp only [EventQueue.pop?, first, Option.map_some]
      cases body : answer.body with
      | teardown => simpa [Event.command?, body] using .kept first (by simp [body])
      | setup command agreement =>
          simp only [Event.command?, body]
          split
          case isTrue asks =>
            refine .kept first fun other accepts => ?_
            cases body.symm.trans accepts
            cases asks
          case isFalse =>
            have left : { n with answers := ⟨n.answers.toList.eraseP (·.passes (some peer) none)⟩ } =
                n.withoutAnswer peer := rfl
            rw [left]
            have sameState : (n.withoutAnswer peer).stateOf answer.source answer.flow =
                n.stateOf answer.source answer.flow := rfl
            unfold completeAnswer
            rw [sameState]
            cases stands : n.stateOf answer.source answer.flow with
            | none => exact .refused first fun state found => by simp [stands] at found
            | some state =>
                dsimp only
                by_cases considering : state.isConsidering = true
                · rw [if_pos considering]
                  cases command
                  case accept => exact .established first body stands considering
                  case reject => exact .cleared first body stands considering
                  all_goals exact .kept first (by simp [body])
                · rw [if_neg considering]
                  by_cases useful : state = .agreement ∧ command = .reject
                  · rw [if_pos useful]
                    exact .kept first (by simp [body, useful.2])
                  · rw [if_neg useful]
                    refine .refused first fun other found => ?_
                    cases stands.symm.trans found
                    simpa [Event.command?, body, considering] using useful

/-- How a negotiation ends when this answer to it leaves, if the answer is one to end it. -/
def verdict? (answer : Event) : Option Conclusion :=
  match answer.body with
  | .setup .accept _ => some .established
  | .setup .reject _ => some .cleared
  | _ => none

/-- For a flow under consideration the negotiation ends as the answer says. -/
theorem takeAnswer_snd_of_verdict {answer : Event} {conclusion : Conclusion}
    {state : AgreementState} (first : n.answers.peek? (some peer) none = some answer)
    (ends : verdict? answer = some conclusion)
    (stands : n.stateOf answer.source answer.flow = some state)
    (considering : state.isConsidering = true) :
    (n.takeAnswer peer).2 = (n.withoutAnswer peer).conclude answer conclusion := by
  have left : { n with answers := ⟨n.answers.toList.eraseP (·.passes (some peer) none)⟩ } =
      n.withoutAnswer peer := rfl
  have sameState : (n.withoutAnswer peer).stateOf answer.source answer.flow = some state := stands
  have final : ∃ agreement, answer.body = .setup .accept agreement ∧ conclusion = .established ∨
      answer.body = .setup .reject agreement ∧ conclusion = .cleared := by
    unfold verdict? at ends
    split at ends
    case h_1 agreement accepts => exact ⟨agreement, Or.inl ⟨accepts, (Option.some.inj ends).symm⟩⟩
    case h_2 agreement rejects => exact ⟨agreement, Or.inr ⟨rejects, (Option.some.inj ends).symm⟩⟩
    case h_3 => cases ends
  obtain ⟨agreement, ⟨body, rfl⟩ | ⟨body, rfl⟩⟩ := final
  · simp [takeAnswer, EventQueue.pop?, first, Event.command?, body, SetupCommand.isRequest,
      completeAnswer, left, sameState, considering]
  · simp [takeAnswer, EventQueue.pop?, first, Event.command?, body, SetupCommand.isRequest,
      completeAnswer, left, sameState, considering]

/-- An operation confirms a view of agreements if every acceptance that it takes out for a flow
under consideration looks the same in this view as what the flow holds already. -/
def Confirms {α : Type} (view : Agreement → α) (n : Negotiation) (operation : Operation) : Prop :=
  ∀ peer answer agreement state,
    operation.takesAnswerFor? = some peer →
    n.answers.peek? (some peer) none = some answer →
    answer.body = .setup .accept agreement →
    n.stateOf answer.source answer.flow = some state →
    state.isConsidering = true →
    ∃ held, n.stations.agreement? answer.key = some held ∧ view held = view agreement

theorem takeResponseElement_snd (peer : MacAddress) (n : Negotiation) :
    (n.takeResponseElement peer).2 = (n.takeAnswer peer).2 := by
  unfold takeResponseElement
  split <;> simp_all

/-! ### All operations -/

/-- Whether a frame can have brought an event. -/
inductive FromFrame : Event → Prop where
  | element {source : MacAddress} {element : List UInt8} {agreement : Agreement}
      (read : Agreement.parse element = .ok agreement) : FromFrame (.setup source agreement)
  | teardown (source : MacAddress) (flow : UInt8) : FromFrame (.teardown source flow)

/-- The ways in which an operation changes what the responder works with. -/
inductive Applied (n : Negotiation) : Operation → Negotiation → Prop where
  | untouched {operation : Operation} {m : Negotiation}
      (same : m.responderPart = n.responderPart) : Applied n operation m
  | queued {operation : Operation} {m : Negotiation} {event : Event}
      (framed : operation.fromFrames = true → FromFrame event)
      (same : m.responderPart = (n.queueEvent event).responderPart) : Applied n operation m
  | noted {m : Negotiation} {event : Event} {source : MacAddress} {token : UInt8}
      {element : List UInt8} {stations : StationTable} (framed : FromFrame event)
      (ensured : n.stations.ensure source = .ok stations)
      (same : m.responderPart = { n.queueEvent event with
        stations := stations.modify source
          ({ · with dialogToken := token, actionPending := true }) }.responderPart) :
      Applied n (.receiveSetup source token element) m
  | handled (source : Option MacAddress) :
      Applied n (.handleEvents source) (n.handleEvents source)
  | taken {operation : Operation} {peer : MacAddress}
      (takes : operation.takesAnswerFor? = some peer) : Applied n operation (n.takeAnswer peer).2
  | forgotten {m : Negotiation} (peer : MacAddress)
      (same : m.responderPart = (n.dropStation peer).responderPart) :
      Applied n (.removeStation peer) m
  | purged (source : Option MacAddress) : Applied n (.purgeEvents source) (n.purgeEvents source).2
  | cleared : Applied n .clear n.clear

theorem applied (n : Negotiation) (operation : Operation) :
    Applied n operation (operation.apply n) := by
  by_cases own : operation.isOwn = true
  · exact .untouched (responderPart_apply own n)
  · cases operation
    case receiveElement source element =>
      have received := elementReceived source element n
      rw [Operation.apply]
      generalize n.receiveElement source element = result at received ⊢
      cases received with
      | malformed => exact .untouched rfl
      | queued read => exact .queued (fun _ => .element read) rfl
    case receiveSetup source token element =>
      have received := setupReceived source token element n
      rw [Operation.apply]
      generalize n.receiveSetup source token element = result at received ⊢
      cases received with
      | malformed => exact .untouched rfl
      | crowded read => exact .queued (fun _ => .element read) rfl
      | noted read _ ensured => exact .noted (.element read) ensured rfl
      | plain read => exact .queued (fun _ => .element read) rfl
    case receiveTeardown source flow =>
      have received := teardownReceived source flow n
      rw [Operation.apply]
      generalize n.receiveTeardown source flow = result at received ⊢
      cases received with
      | unknown => exact .untouched rfl
      | queued => exact .queued (fun _ => .teardown source flow) rfl
    case queueEvent event => exact .queued (fun framed => by cases framed) rfl
    case handleEvents source => exact .handled source
    case takeAnswer peer => exact .taken rfl
    case takeResponseElement peer =>
      rw [Operation.apply, takeResponseElement_snd]
      exact .taken rfl
    case removeStation peer =>
      have removed := stationRemoved peer n
      rw [Operation.apply]
      generalize n.removeStation peer = result at removed ⊢
      cases removed with
      | forgotten => exact .forgotten peer rfl
      | unknown => exact .untouched rfl
    case purgeEvents source => exact .purged source
    case clear => exact .cleared
    all_goals exact absurd rfl own

end TargetWakeTime.Negotiation
