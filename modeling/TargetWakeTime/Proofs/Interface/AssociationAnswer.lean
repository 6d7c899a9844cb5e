import TargetWakeTime.Proofs.Agreement.Legible
import TargetWakeTime.Proofs.Interface.Actions
import TargetWakeTime.Proofs.Negotiation.Conservation
import TargetWakeTime.Proofs.Negotiation.Transitions
import TargetWakeTime.Proofs.Runs

/-!
Contract: which request an association request gets its answer to.

Owns:
- the state in which the element of an association request is taken up, after all older events of its
  station;
- that a response is an acceptance or a rejection for the flow that was asked for, and reads back as
  such from its element;
- that an association request gets the answer to its own element if no answer waits for the station
  by then, and an answer that has waited otherwise.

An answer that does not leave in an action frame waits for the next association response to its
station, whatever that station asks for then.
-/

namespace TargetWakeTime

namespace Negotiation

variable {n m : Negotiation} {peer : MacAddress} {key : AgreementKey} {event : Event}
  {command : SetupCommand} {agreement granted : Agreement}

/-! ### Responses -/

/-- A response says in its element what it decides, and for which flow. -/
structure Response.Answers (agreement : Agreement) (response : Response) : Prop where
  decides : response.command = .accept ∨ response.command = .reject
  written : response.agreement.command = response.command
  sameFlow : response.agreement.flow = agreement.flow
  legible : agreement.Legible → response.agreement.Legible

theorem answers_refused (agreement : Agreement) :
    Response.Answers agreement ⟨.reject, agreement.refused⟩ where
  decides := .inr rfl
  written := rfl
  sameFlow := rfl
  legible legible := legible.withCommand .reject

theorem answers_granted (placed : n.place? key command agreement = some granted) :
    Response.Answers agreement ⟨.accept, granted⟩ := by
  unfold place? at placed
  cases scheduled : n.schedule.schedule key agreement command n.stations.servicePeriod? with
  | mk result after =>
      rw [scheduled] at placed
      cases result with
      | error => cases placed
      | ok moved =>
          obtain ⟨-, -, -, wakeTime, -, rfl, -⟩ := Schedule.schedule_ok scheduled
          cases placed
          exact ⟨.inl rfl, rfl, rfl, fun legible => legible.announced wakeTime .accept⟩

theorem answers_firstResponse (n : Negotiation) (key : AgreementKey) (command : SetupCommand)
    (agreement : Agreement) :
    (firstResponse command agreement (n.place? key command agreement)).Answers agreement := by
  cases placed : n.place? key command agreement with
  | none => cases command <;> exact answers_refused agreement
  | some granted =>
      cases command
      case request | suggest => exact answers_granted placed
      all_goals exact answers_refused agreement

/-- Whatever the table responds to a request answers it. -/
theorem answers_of_row {response : Response}
    (decided : (n.row key command agreement).1 = some response) : response.Answers agreement := by
  unfold row at decided
  cases stands : n.standing key with
  | noAgreement =>
      rw [stands] at decided
      cases decided
      exact answers_firstResponse n key command agreement
  | agreement =>
      rw [stands] at decided
      simp only [transition] at decided
      split at decided
      · cases decided
      · cases decided
        exact answers_refused agreement
  | considerRequest | considerSuggest | considerDemand | considerGrouping =>
      rw [stands] at decided
      cases decided

/-! ### What an element leaves waiting -/

/-- The answers that wait once an element is handled: none that is new, or the table's response to
the element behind all others. -/
inductive Leaves (agreement : Agreement) (key : AgreementKey) (n : Negotiation) :
    (answers : List Event) → Prop where
  | nothingNew {answers : List Event} (fewer : answers.Sublist n.answers.toList) :
      Leaves agreement key n answers
  | response {response : Response}
      (decided : (n.row key agreement.command agreement).1 = some response) :
      Leaves agreement key n
        (n.answers.toList ++ [⟨key.address, key.flow, .setup response.command response.agreement⟩])

theorem leaves_handleEvent (orderly : n.Orderly) (responds : n.responder = true)
    (agreement : Agreement) :
    let event := Event.setup peer agreement
    Leaves agreement event.key n (n.handleEvent event).1.answers.toList := by
  intro event
  have body : event.body = .setup agreement.command agreement := rfl
  by_cases crowded : CrowdedOut event n
  · rw [handleEvent_of_crowdedOut crowded]
    exact .nothingNew (List.Sublist.refl _)
  · cases asks : agreement.command.isRequest with
    | false =>
        rw [handleEvent_of_answer body asks]
        have same : (if n.requester then n.handleAnswer event agreement.command else n).answers =
            n.answers := by
          split
          · exact congrArg ResponderPart.answers
              (responderPart_handleAnswer event agreement.command n)
          · rfl
        rw [same]
        exact .nothingNew (List.Sublist.refl _)
    | true =>
        have fits : n.stations.contains event.source = true ∨
            n.stations.size < n.stations.capacity := by
          by_cases known : n.stations.contains event.source = true
          · exact .inl known
          · refine .inr (Nat.lt_of_not_le fun full => crowded ?_)
            exact ⟨(asks_of_body body).trans asks, responds, Bool.not_eq_true _ ▸ known, full⟩
        obtain ⟨-, produces, -⟩ := row_handleEvent orderly responds body asks agreement.flow_lt fits
        generalize (n.handleEvent event).1 = m at produces ⊢
        generalize row : (n.row event.key agreement.command agreement).1 = response? at produces
        cases produces with
        | nothing => exact .nothingNew (List.Sublist.refl _)
        | inFrame _ _ fewer => exact .nothingNew fewer
        | waits _ _ pushed =>
            rw [pushed]
            exact .response row

/-! ### The turn of a new event -/

/-- The state in which a new event is taken up if the events of its source are handled: all older
ones of the source have been handled. -/
def atTurnOf (event : Event) (n : Negotiation) : Negotiation :=
  let queued := n.queueEvent event
  (handleAll (queued.due (some event.source)).dropLast (queued.opened (some event.source))).1

/-- A new event comes last of all that are due. -/
theorem due_queueEvent (event : Event) (n : Negotiation) :
    ∃ older, (n.queueEvent event).due (some event.source) = older ++ [event] := by
  have passes : event.passes (some event.source) none = true := Event.passes_some_none.mpr rfl
  refine ⟨(n.events.purge (some event.source) (some event.flow)).toList.filter
    (·.passes (some event.source) none), ?_⟩
  rw [due, queueEvent, EventQueue.pushLatest, EventQueue.toList_push, List.filter_append,
    List.filter_cons_of_pos passes, List.filter_nil]

theorem handleAll_append (older : List Event) (event : Event) (n : Negotiation) :
    (handleAll (older ++ [event]) n).1 = ((handleAll older n).1.handleEvent event).1 := by
  induction older generalizing n with
  | nil => rfl
  | cons first rest inductionHypothesis => exact inductionHypothesis _

theorem answers_handleEvents_queueEvent (event : Event) (n : Negotiation) :
    ((n.queueEvent event).handleEvents (some event.source)).answers =
      ((n.atTurnOf event).handleEvent event).1.answers := by
  obtain ⟨older, due⟩ := due_queueEvent event n
  obtain ⟨events, tasks, handled⟩ := handleEvents_eq (some event.source) (n.queueEvent event)
  rw [handled, atTurnOf]
  dsimp only
  rw [due, List.dropLast_concat, handleAll_append]

theorem orderly_atTurnOf (orderly : n.Orderly) (event : Event) : (n.atTurnOf event).Orderly :=
  holds_handleAll Orderly (fun event _ _ kept => (concerns_handleEvent kept event).orderly)
    (orderly.congr rfl rfl)

theorem responder_atTurnOf (event : Event) (n : Negotiation) :
    (n.atTurnOf event).responder = n.responder :=
  congrArg Surroundings.responder (surroundings_handleAll _ _)

/-- The element for an association response is that of the oldest answer for the station. -/
theorem takeResponseElement_fst {element : List UInt8}
    (taken : (n.takeResponseElement peer).1 = some element) :
    ∃ answer, n.answers.peek? (some peer) none = some answer ∧
      answer.agreement?.map Agreement.element = some element := by
  have result := answerTaken peer n
  unfold takeResponseElement at taken
  generalize n.takeAnswer peer = outcome at result taken
  cases result with
  | nothing => cases taken
  | refused => cases taken
  | established first => exact ⟨_, first, taken⟩
  | cleared first => exact ⟨_, first, taken⟩
  | kept first => exact ⟨_, first, taken⟩

/-- The oldest answer for a station is one that has waited, or the response if none has. -/
theorem Leaves.oldest {flow : UInt8} {answers : EventQueue} {answer : Event}
    (leaves : Leaves agreement ⟨peer, flow⟩ n answers.toList)
    (first : answers.peek? (some peer) none = some answer) :
    answer ∈ n.answers.toList ∨
      (∀ older ∈ n.answers.toList, older.source ≠ peer) ∧
        ∃ response : Response, (n.row ⟨peer, flow⟩ agreement.command agreement).1 = some response ∧
          answer = ⟨peer, flow, .setup response.command response.agreement⟩ := by
  unfold EventQueue.peek? at first
  generalize answers.toList = waiting at leaves first
  cases leaves with
  | nothingNew fewer => exact .inl (fewer.subset (List.mem_of_find?_eq_some first))
  | response decided =>
      rw [List.find?_append] at first
      cases old : n.answers.toList.find? (·.passes (some peer) none) with
      | some oldest =>
          rw [old, Option.some_or] at first
          exact .inl (Option.some.inj first ▸ List.mem_of_find?_eq_some old)
      | none =>
          rw [old, Option.none_or] at first
          refine .inr ⟨fun older member own => ?_, _, decided, ?_⟩
          · exact List.find?_eq_none.mp old older member (Event.passes_some_none.mpr own)
          · exact (List.mem_singleton.mp (List.mem_of_find?_eq_some first))

end Negotiation

namespace Interface

open Negotiation (Response Settings requestElement)

/-- An element that an association request gets is the one for the response once the station's
events are handled. -/
theorem exists_of_associationRequest {i : Interface} {source : MacAddress}
    {element answer : List UInt8}
    (returned : (i.associationRequest source element).1 = .ok (some answer)) :
    ∃ agreement, Agreement.parse element = .ok agreement ∧
      (((i.negotiation.queueEvent (.setup source agreement)).handleEvents
        (some source)).takeResponseElement source).1 = some answer := by
  have received := Negotiation.elementReceived source element i.negotiation
  simp only [associationRequest, operate] at returned
  generalize i.negotiation.receiveElement source element = result at received returned
  cases received with
  | malformed => cases returned
  | queued read => exact ⟨_, read, Except.ok.inj returned⟩

/-- What every operation preserves of the negotiation state holds in all states of a run. -/
theorem invariant_reached (invariant : Negotiation → Prop)
    (kept : ∀ n (operation : Negotiation.Operation), invariant n → invariant (operation.apply n))
    {i : Interface} {actions : List Action} (start : invariant i.negotiation) :
    ∀ reached ∈ Runs.reached Action.apply i actions, invariant reached.negotiation := by
  refine Runs.invariant_of_steps (fun i : Interface => invariant i.negotiation)
    (fun i action holds (_ : True) => ?_) start fun _ _ => trivial
  rw [negotiation_apply]
  exact Negotiation.invariant_of_apply invariant kept holds _ (Negotiation.run_mem_reached _ _)

/-- In every state of an interface that answers requests, an element that an association request gets
answers its own element, if no answer waits for the station when that is taken up: it reads back as
an acceptance or a rejection of the same flow, as the table has it for the element. Otherwise it is
the element of an answer that has waited for the station. -/
theorem associationRequest_answered_unless_waiting (vif : UInt16) (address : MacAddress)
    (settings : Settings) (responds : settings.responder = true) (actions : List Action)
    (i : Interface) (isReached : i ∈ Runs.reached Action.apply (new vif address settings) actions)
    (source : MacAddress) (element answer : List UInt8)
    (returned : (i.associationRequest source element).1 = .ok (some answer)) :
    ∃ agreement, Agreement.parse element = .ok agreement ∧
      let event := Event.setup source agreement
      let n := i.negotiation.atTurnOf event
      ((∀ older ∈ n.answers.toList, older.source ≠ source) →
        ∃ response : Negotiation.Response,
          (n.row event.key agreement.command agreement).1 = some response ∧
            Agreement.parse answer = .ok response.agreement ∧
            response.agreement.flow = agreement.flow ∧
            response.agreement.command = response.command ∧
            (response.command = .accept ∨ response.command = .reject)) ∧
        ((∃ older ∈ n.answers.toList, older.source = source) →
          ∃ older ∈ n.answers.toList, older.source = source ∧
            older.agreement?.map Agreement.element = some answer) := by
  obtain ⟨orderly, answers⟩ : i.negotiation.Orderly ∧ i.negotiation.responder = true :=
    invariant_reached (fun n => n.Orderly ∧ n.responder = true)
      (fun n operation kept => ⟨Negotiation.orderly_apply kept.1 operation,
        (Negotiation.responder_apply n operation).trans kept.2⟩)
      ⟨Negotiation.orderly_new settings, responds⟩ i isReached
  obtain ⟨agreement, read, taken⟩ := exists_of_associationRequest returned
  refine ⟨agreement, read, ?_⟩
  intro event n
  obtain ⟨oldest, first, carried⟩ := Negotiation.takeResponseElement_fst taken
  have own : oldest.source = source := Event.passes_some_none.mp (List.find?_some first)
  have leaves : Negotiation.Leaves agreement event.key n (n.handleEvent event).1.answers.toList :=
    Negotiation.leaves_handleEvent (Negotiation.orderly_atTurnOf orderly event)
      ((Negotiation.responder_atTurnOf event i.negotiation).trans answers) agreement
  rw [show (some source) = some event.source from rfl,
    Negotiation.answers_handleEvents_queueEvent event i.negotiation] at first
  rcases leaves.oldest first with older | ⟨nobody, response, decided, rfl⟩
  · exact ⟨fun nobody => absurd own (nobody oldest older), fun _ => ⟨oldest, older, own, carried⟩⟩
  · refine ⟨fun _ => ⟨response, decided, ?_⟩, fun ⟨older, member, waits⟩ =>
      absurd waits (nobody older member)⟩
    have answered := Negotiation.answers_of_row decided
    have legible := answered.legible (Agreement.legible_of_parse read)
    rw [← Option.some.inj carried]
    exact ⟨legible.parse_element, answered.sameFlow, answered.written, answered.decides⟩

/-- The only place is taken when a second station asks for flow 0. The first station leaves, and the
request of the second one is tried again and granted, while no association response is due. -/
def grantedInBetween : List Action :=
  let first : MacAddress := ⟨2, 0, 0, 0, 0, 1⟩
  let second : MacAddress := ⟨2, 0, 0, 0, 0, 2⟩
  [.associationRequest first (requestElement 0 1 1024),
    .associationRequest second (requestElement 0 1 1024),
    .work, .work, .work,
    .removeStation first,
    .wake [.task (.handleEvents none)], .work, .work, .work]

theorem eq_ok_of_toOption {ε α : Type} {result : Except ε α} {value : α}
    (found : result.toOption = some value) : result = .ok value := by
  cases result with
  | error => cases found
  | ok => exact congrArg Except.ok (Option.some.inj found)

/-- With room for one station more, a third station has had flow 0 all along. It asks for flow 1 while
the answer of the second one still waits, and is answered for the flow that it asks for. -/
theorem associationRequest_answered_unless_waiting_besideOthers :
    let first : Interface := new 0 ⟨2, 0, 0, 0, 0, 0⟩ { responder := true, maximumStations := 2 }
    let third : MacAddress := ⟨2, 0, 0, 0, 0, 3⟩
    let i := (Action.associationRequest third (requestElement 0 1 1024) :: grantedInBetween).foldl
      Action.apply first
    i.negotiation.answers.toList.map (·.source) = [⟨2, 0, 0, 0, 0, 2⟩] ∧
      ∃ answer granted, (i.associationRequest third (requestElement 1 1 1024)).1 = .ok (some answer) ∧
        Agreement.parse answer = .ok granted ∧ granted.flow = 1 ∧
        (granted.command = .accept ∨ granted.command = .reject) := by
  intro first third i
  let element := requestElement 1 1 1024
  let answer : List UInt8 := [0, 0xa8, 0, 0, 2, 0, 0, 0, 0, 0, 0, 1, 0, 4, 0]
  have returned : (i.associationRequest third element).1 = .ok (some answer) :=
    eq_ok_of_toOption (by decide +kernel)
  have isReached : i ∈ Runs.reached Action.apply first
      (.associationRequest third (requestElement 0 1 1024) :: grantedInBetween) :=
    Runs.foldl_mem_reached _ _
  obtain ⟨agreement, read, answered, -⟩ := associationRequest_answered_unless_waiting 0 _
    { responder := true, maximumStations := 2 } rfl _ i isReached third element answer returned
  have asked : (Agreement.parse element).toOption.map (fun agreement => (agreement.flow,
      (i.negotiation.atTurnOf (.setup third agreement)).answers.toList.map (·.source))) =
        some (1, [⟨2, 0, 0, 0, 0, 2⟩]) := by decide +kernel
  rw [read] at asked
  obtain ⟨flow, others⟩ := Prod.mk.inj (Option.some.inj asked)
  obtain ⟨response, -, readBack, sameFlow, written, decides⟩ := answered fun older member own => by
    have listed := List.mem_map_of_mem (f := (·.source)) member
    rw [others, own] at listed
    exact absurd listed (by decide)
  exact ⟨by decide +kernel, answer, _, returned, readBack, sameFlow.trans flow, written ▸ decides⟩

/-- When the second station associates again and asks for flow 1, it is told about flow 0. -/
theorem not_answered_grantedInBetween :
    let i := grantedInBetween.foldl Action.apply (new 0 ⟨2, 0, 0, 0, 0, 0⟩ Negotiation.onePlace)
    let element := requestElement 1 1 1024
    ∃ answer, (i.associationRequest ⟨2, 0, 0, 0, 0, 2⟩ element).1 = .ok (some answer) ∧
      (Agreement.parse element).map Agreement.flow = .ok 1 ∧
      (Agreement.parse answer).map Agreement.flow = .ok 0 :=
  ⟨[0, 0x28, 0, 0, 0, 0, 0, 0, 0, 0, 0, 1, 0, 4, 0], by rfl, by rfl, by rfl⟩

end Interface

end TargetWakeTime
