import TargetWakeTime.Proofs.Agreement.Legible
import TargetWakeTime.Proofs.Negotiation.IdleStations
import TargetWakeTime.Proofs.Negotiation.Reply

/-!
Contract: how a responder settles a request that came in an action frame.

Owns:
- the answer to a request for a free flow: it is granted or refused at once, in one action frame with
  the token of the request, and the frame says what the responder holds from then on;
- the capacity of the station table, which no event changes.
-/

namespace TargetWakeTime.Negotiation

variable {n m : Negotiation} {peer : MacAddress} {flow token : UInt8} {event : Event}
  {agreement : Agreement}

/-- The request for a flow is granted or refused, and the answer says which. -/
structure Resolved (peer : MacAddress) (flow token : UInt8) (n : Negotiation) (answer : Agreement)
    (m : Negotiation) : Prop where
  legible : answer.Legible
  sameFlow : answer.flow = flow
  tasks : m.tasks = n.tasks ++ [.sendSetup peer token answer.element flow]
  held :
    answer.command = .accept ∧ m.stations.busy? ⟨peer, flow⟩ = some ⟨.agreement, some answer⟩ ∨
      answer.command = .reject ∧ m.stations.busy? ⟨peer, flow⟩ = none

/-- What is done to the table before an answer leaves does not matter, as long as nothing is sent. -/
theorem Resolved.of_tasks {middle : Negotiation} {answer : Agreement}
    (resolved : Resolved peer flow token middle answer m) (same : middle.tasks = n.tasks) :
    Resolved peer flow token n answer m :=
  { resolved with tasks := same ▸ resolved.tasks }

/-- An answer with this agreement leaves in an action frame with this token. -/
def letOut (answer : Event) (token : UInt8) (agreement : Agreement) (n : Negotiation) : Negotiation :=
  { n with
    stations := n.stations.withoutNote answer.source
    tasks := n.tasks ++ [.sendSetup answer.source token agreement.element answer.flow] }

theorem neutral_letOut (answer : Event) (token : UInt8) (agreement : Agreement)
    (orderly : n.Orderly) : Neutral n (n.letOut answer token agreement) :=
  neutral_modify orderly (fun _ => rfl) (fun _ => rfl)

/-- An answer to a noted request leaves at once, and concludes the negotiation. -/
theorem respond_of_noted (answer : Event) {conclusion : Conclusion}
    (noted : n.stations.note? answer.source = some token)
    (carries : answer.agreement? = some agreement) :
    n.respond answer (some conclusion) =
      (n.letOut answer token agreement).conclude answer conclusion := by
  have response := responded answer (some conclusion) n
  generalize n.respond answer (some conclusion) = m at response ⊢
  cases response with
  | unknown absent =>
      rw [StationTable.note?, absent] at noted
      cases noted
  | waiting unnoted =>
      rw [unnoted] at noted
      cases noted
  | left pending => cases pending
  | concluded ends sameNote sends =>
      cases ends
      cases sameNote.symm.trans noted
      rw [sends agreement carries]
      rfl

/-- A flow that was established holds what its answer carries. -/
theorem busy?_conclude_established {slot : Slot} (found : n.stations.slot? event.key = some slot)
    (carries : event.agreement? = some agreement) :
    (n.conclude event .established).stations.busy? event.key =
      some ⟨.agreement, some agreement⟩ := by
  rw [StationTable.busy?_eq_some_iff]
  refine ⟨?_, by simp⟩
  rw [Event.key] at found ⊢
  simp only [conclude, found, carries, StationTable.slot?_setAgreement, setState,
    StationTable.slot?_setState, if_true]
  rfl

/-- A flow that was cleared is free. -/
theorem busy?_conclude_cleared (event : Event) (orderly : n.Orderly) :
    (n.conclude event .cleared).stations.busy? event.key = none :=
  Option.eq_none_iff_forall_ne_some.mpr fun slot busy => by
    cases (busy?_conclude orderly busy).1

/-- A request is refused. -/
theorem resolved_reject (orderly : n.Orderly) (noted : n.stations.note? peer = some token)
    (legible : agreement.Legible) (sameFlow : agreement.flow = flow)
    (unagreed : n.stateOf peer flow ≠ some .agreement) :
    Resolved peer flow token n (agreement.withCommand .reject) (n.reject peer flow agreement) := by
  let answer : Event :=
    { source := peer, flow, body := .setup .reject (agreement.withCommand .reject) }
  have left := (neutral_letOut answer token (agreement.withCommand .reject) orderly).orderly
  have refused : n.reject peer flow agreement =
      (n.letOut answer token (agreement.withCommand .reject)).conclude answer .cleared := by
    have ends : (n.stateOf peer flow == some .agreement) = false := by simpa using unagreed
    rw [reject, ends]
    exact respond_of_noted answer noted rfl
  rw [refused]
  exact
    { legible := legible.withCommand .reject
      sameFlow
      tasks := (quiet_conclude left.distinct).tasks
      held := .inr ⟨rfl, busy?_conclude_cleared answer left⟩ }

/-- A request or suggestion is granted if the schedule has a place, and else refused. -/
theorem resolved_accept (command : SetupCommand) {slot : Slot} (orderly : n.Orderly)
    (noted : n.stations.note? peer = some token) (legible : agreement.Legible)
    (sameFlow : agreement.flow = flow) (found : n.stations.slot? ⟨peer, flow⟩ = some slot)
    (considering : slot.state.isConsidering = true) :
    ∃ answer, Resolved peer flow token n answer (n.accept peer flow command agreement) := by
  rw [accept_eq]
  dsimp only
  split
  case h_1 schedule refused =>
    have unagreed : ({ n with schedule } : Negotiation).stateOf peer flow ≠ some .agreement := by
      rw [stateOf_of_slot? (n := { n with schedule }) found]
      intro agreed
      rw [Option.some.inj agreed] at considering
      cases considering
    have lost := concerns_refused orderly refused
    exact ⟨_, (resolved_reject lost.orderly (n := { n with schedule }) noted legible sameFlow
      unagreed).of_tasks rfl⟩
  case h_2 scheduled schedule granted =>
    obtain ⟨-, -, position, wakeTime, -, rfl, -⟩ := Schedule.schedule_ok granted
    let answer : Agreement := ({ agreement with wakeTime }.withCommand .accept).updateParameters
    let event : Event := { source := peer, flow, body := .setup .accept answer }
    let held : Negotiation :=
      { n with
        schedule
        stations := n.stations.modifySlots peer (·.setAgreement flow (some answer)) }
    have stillNoted : held.stations.note? peer = some token :=
      (StationTable.note?_modifySlots _).trans noted
    have withAnswer : held.stations.slot? event.key = some { slot with agreement := some answer } := by
      show held.stations.slot? ⟨peer, flow⟩ = _
      rw [StationTable.slot?_setAgreement, if_pos rfl, found]
      rfl
    have stays : (held.letOut event token answer).stations.slot? event.key =
        some { slot with agreement := some answer } :=
      StationTable.slot?_withoutNote.trans withAnswer
    have distinct : (held.letOut event token answer).stations.Distinct :=
      StationTable.distinct_withoutNote (StationTable.distinct_modifySlots orderly.distinct)
    refine ⟨answer, ?_⟩
    rw [respond_of_noted (n := held) event stillNoted rfl]
    exact
      { legible := legible.announced wakeTime .accept
        sameFlow
        tasks := (quiet_conclude distinct).tasks
        held := .inl ⟨rfl, busy?_conclude_established stays rfl⟩ }

/-- A request for a free flow is settled at once. -/
theorem resolved_consider {command : SetupCommand} {slot : Slot} (orderly : n.Orderly)
    (noted : n.stations.note? peer = some token) (legible : agreement.Legible)
    (sameFlow : agreement.flow = flow) (found : n.stations.slot? ⟨peer, flow⟩ = some slot)
    (requests : command.isRequest = true) :
    ∃ answer, Resolved peer flow token n answer (n.consider peer flow command agreement) := by
  have considering (state : AgreementState) (busy : state ≠ .noAgreement) :
      (n.setState peer flow state).Orderly ∧
        (n.setState peer flow state).stations.note? peer = some token ∧
          (n.setState peer flow state).stations.slot? ⟨peer, flow⟩ = some { slot with state } := by
    refine ⟨(concerns_setState orderly busy).orderly,
      (StationTable.note?_modifySlots _).trans noted, ?_⟩
    rw [setState, StationTable.slot?_setState, if_pos rfl, found]
    rfl
  unfold consider
  rw [found]
  cases command with
  | request =>
      obtain ⟨taken, stillNoted, withState⟩ := considering .considerRequest (by simp)
      obtain ⟨answer, resolved⟩ :=
        resolved_accept .request taken stillNoted legible sameFlow withState rfl
      exact ⟨answer, resolved.of_tasks rfl⟩
  | suggest =>
      obtain ⟨taken, stillNoted, withState⟩ := considering .considerSuggest (by simp)
      obtain ⟨answer, resolved⟩ :=
        resolved_accept .suggest taken stillNoted legible sameFlow withState rfl
      exact ⟨answer, resolved.of_tasks rfl⟩
  | demand | grouping =>
      obtain ⟨taken, stillNoted, withState⟩ := considering .considerDemand (by simp)
      have unagreed : (n.setState peer flow .considerDemand).stateOf peer flow ≠ some .agreement := by
        rw [stateOf_of_slot? withState]
        simp
      exact ⟨_, (resolved_reject taken stillNoted legible sameFlow unagreed).of_tasks rfl⟩
  | accept | alternate | dictate | reject => cases requests

/-- A noted request for a free flow is granted or refused when it is handled. -/
theorem resolved_handleEvent (orderly : n.Orderly) (responds : n.responder = true)
    (noted : n.stations.note? peer = some token) (legible : agreement.Legible)
    (requests : agreement.command.isRequest = true)
    (free : n.stations.busy? ⟨peer, agreement.flow⟩ = none) :
    ∃ answer, Resolved peer agreement.flow token n answer
      (n.handleEvent (.setup peer agreement)).1 := by
  obtain ⟨station, known⟩ : ∃ station, n.stations.get? peer = some station := by
    obtain ⟨station, known, -⟩ := Option.bind_eq_some_iff.mp noted
    exact ⟨station, known⟩
  have ensured : n.stations.ensure peer = .ok n.stations := by
    simp [StationTable.ensure, StationTable.contains, known]
  obtain ⟨slot, found⟩ := StationTable.exists_slot_of_ensure ensured agreement.flow_lt
  have stands : n.stateOf peer agreement.flow = some .noAgreement := by
    rw [stateOf_of_slot? found, StationTable.busy?_eq_none_iff.mp free slot found]
  have handled : (n.handleEvent (.setup peer agreement)).1 =
      n.consider peer agreement.flow agreement.command agreement := by
    simp only [handleEvent, Event.setup]
    rw [if_pos requests, if_pos responds, ensured]
    simp only [stands, Option.getD_some, answerRequest]
  rw [handled]
  exact resolved_consider orderly noted legible rfl found requests

/-! ### Capacity -/

theorem capacity_collectIdle (peer : MacAddress) (n : Negotiation) :
    (n.collectIdle peer).stations.capacity = n.stations.capacity := by
  unfold collectIdle
  split
  · split <;> rfl
  · rfl

theorem capacity_conclude (event : Event) (conclusion : Conclusion) (n : Negotiation) :
    (n.conclude event conclusion).stations.capacity = n.stations.capacity := by
  unfold conclude
  split
  · rfl
  · cases conclusion with
    | established => cases event.agreement? <;> rfl
    | cleared => exact capacity_collectIdle _ _

theorem capacity_respond (answer : Event) (conclusion : Option Conclusion) (n : Negotiation) :
    (n.respond answer conclusion).stations.capacity = n.stations.capacity := by
  have response := responded answer conclusion n
  generalize n.respond answer conclusion = m at response ⊢
  cases response with
  | unknown | waiting | left => rfl
  | concluded => exact capacity_conclude ..

theorem capacity_answerRequest (peer : MacAddress) (flow : UInt8) (command : SetupCommand)
    (agreement : Agreement) (state : AgreementState) (n : Negotiation) :
    (n.answerRequest peer flow command agreement state).stations.capacity =
      n.stations.capacity := by
  have refused (n : Negotiation) :
      (n.reject peer flow agreement).stations.capacity = n.stations.capacity :=
    capacity_respond ..
  have answered (n : Negotiation) :
      (n.accept peer flow command agreement).stations.capacity = n.stations.capacity := by
    rw [accept_eq]
    dsimp only
    split
    · exact refused _
    · exact capacity_respond ..
  unfold answerRequest
  split
  case h_1 =>
    unfold consider
    split
    · rfl
    · cases command with
      | request | suggest => exact answered _
      | demand | grouping => exact refused _
      | accept | alternate | dictate | reject => rfl
  case h_6 =>
    split
    · rfl
    · exact refused n
  all_goals rfl

theorem capacity_of_ensure {t s : StationTable} (ensured : t.ensure peer = .ok s) :
    s.capacity = t.capacity := by
  unfold StationTable.ensure at ensured
  split at ensured
  · rw [← Except.ok.inj ensured]
  · split at ensured
    · cases ensured
    · rw [← Except.ok.inj ensured]

/-- No event changes how many stations the table takes. -/
theorem capacity_handleEvent (event : Event) (n : Negotiation) :
    (n.handleEvent event).1.stations.capacity = n.stations.capacity := by
  unfold handleEvent
  split
  · unfold handleTeardown
    split
    · rw [show (n.handleOwnTeardown event).stations = n.stations from
        congrArg ResponderPart.stations (responderPart_handleOwnTeardown event n)]
    · split
      · split
        · rfl
        · rfl
        · exact capacity_conclude ..
      · rfl
  · split
    · split
      · split
        · rfl
        case h_2 stations ensured =>
          exact (capacity_answerRequest ..).trans (capacity_of_ensure ensured)
      · rfl
    · split
      · rw [show (n.handleAnswer event _).stations = n.stations from
          congrArg ResponderPart.stations (responderPart_handleAnswer event _ n)]
      · rfl

end TargetWakeTime.Negotiation
