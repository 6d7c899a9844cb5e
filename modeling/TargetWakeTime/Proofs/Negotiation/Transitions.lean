import TargetWakeTime.Proofs.Negotiation.OpenConsiderations
import TargetWakeTime.Proofs.Negotiation.Serving

/-!
Contract: the responder's transition table.

Owns:
- the table: which response a request gets and where it leaves its flow, by the state of the flow,
  the command, the place that the schedule has, and how responses can leave;
- how a response leaves, which is in one action frame if one is awaited, and else as one answer that
  waits;
- that every request that is taken up, in any state that a run reaches, does what the table says.

The table looks at the state before the request only. The functions that carry it out look at what
they have done so far: a flow is taken up before its request is accepted, an acceptance falls back
to a rejection if the schedule has no place, and a rejection in an action frame may take the whole
station along.
-/

namespace TargetWakeTime

/-- A request as its rejection carries it. Only the command and the requester bit are changed. -/
def Agreement.refused (a : Agreement) : Agreement :=
  { a with parameters := { a.parameters with
      requestType := { a.parameters.requestType with command := .reject, request := false } } }

theorem Agreement.withCommand_reject (a : Agreement) : a.withCommand .reject = a.refused := rfl

namespace StationTable

variable {t s : StationTable} {address other : MacAddress}

theorem contains_of_ensure (ensured : t.ensure address = .ok s) : s.contains address = true := by
  rw [contains, get?_of_ensure ensured, if_pos rfl]
  rfl

@[simp] theorem contains_modifySlots {f : Slots → Slots} :
    (t.modifySlots address f).contains other = t.contains other := by
  have moved : (t.modifySlots address f).get? other = _ := get?_modify fun _ => rfl
  rw [contains, moved]
  split
  case isTrue same =>
    rw [same, contains]
    cases t.get? address <;> rfl
  case isFalse => rfl

theorem servicePeriod?_setState {flow : UInt8} {state : AgreementState} :
    (t.modifySlots address (·.setState flow state)).servicePeriod? = t.servicePeriod? :=
  funext fun _ => congrArg (·.map ServicePeriod.ofAgreement) agreement?_setState

theorem servicePeriod?_of_ensure (ensured : t.ensure address = .ok s) :
    s.servicePeriod? = t.servicePeriod? :=
  funext fun _ => congrArg (·.map ServicePeriod.ofAgreement) (agreement?_of_ensure ensured)

/-- A station that is known, or that the table has a place for, can be made sure of. -/
theorem exists_ensure (fits : t.contains address = true ∨ t.size < t.capacity) :
    ∃ s, t.ensure address = .ok s := by
  unfold ensure
  split
  · exact ⟨_, rfl⟩
  case isFalse unknown =>
    have space : ¬ t.capacity ≤ t.size := Nat.not_le.mpr (fits.resolve_left unknown)
    exact ⟨_, if_neg space⟩

end StationTable

namespace Negotiation

/-! ### The table -/

/-- What a station is told about its request. -/
structure Response where
  command : SetupCommand
  agreement : Agreement
deriving DecidableEq, Repr

/-- The state in which a request for a free flow waits for its response to leave. -/
def awaiting : SetupCommand → AgreementState
  | .suggest => .considerSuggest
  | .demand | .grouping => .considerDemand
  | _ => .considerRequest

/-- The response to a request for a free flow: requests and suggestions are accepted if the schedule
has a place, and everything else is rejected. -/
def firstResponse (command : SetupCommand) (agreement : Agreement) (place? : Option Agreement) :
    Response :=
  match command, place? with
  | .request, some granted | .suggest, some granted => ⟨.accept, granted⟩
  | _, _ => ⟨.reject, agreement.refused⟩

/-- The transition table: the response to a request, if there is one, and where the flow stands
then. `place?` is the agreement that the schedule would grant, `waits` tells whether a response for
the flow waits already, and `framed` whether the response leaves in an action frame at once. -/
def transition (command : SetupCommand) (agreement : Agreement) (place? : Option Agreement)
    (waits framed : Bool) : AgreementState → Option Response × AgreementState
  | .noAgreement =>
      let response := firstResponse command agreement place?
      (some response,
        if framed then if response.command = .accept then .agreement else .noAgreement
        else awaiting command)
  | .agreement => (if waits then none else some ⟨.reject, agreement.refused⟩, .agreement)
  | state => (none, state)

/-- Where the negotiation of a flow stands. A flow that has no slot is free. -/
def standing (key : AgreementKey) (n : Negotiation) : AgreementState :=
  (n.stateOf key.address key.flow).getD .noAgreement

/-- The agreement that the schedule would grant. -/
def place? (key : AgreementKey) (command : SetupCommand) (agreement : Agreement)
    (n : Negotiation) : Option Agreement :=
  match (n.schedule.schedule key agreement command n.stations.servicePeriod?).1 with
  | .ok scheduled => some (scheduled.withCommand .accept).updateParameters
  | .error _ => none

/-- How a response leaves, if there is one. Without one nothing happens. -/
inductive Produces (key : AgreementKey) (n : Negotiation) :
    Option Response → Negotiation → Prop where
  | nothing : Produces key n none n
  | inFrame {response : Response} {token : UInt8} {m : Negotiation}
      (noted : n.stations.note? key.address = some token)
      (tasks : m.tasks =
        n.tasks ++ [.sendSetup key.address token response.agreement.element key.flow])
      (answers : m.answers.toList.Sublist n.answers.toList) : Produces key n (some response) m
  | waits {response : Response} {m : Negotiation} (unnoted : n.stations.note? key.address = none)
      (tasks : m.tasks = n.tasks)
      (answers : m.answers =
        n.answers.push ⟨key.address, key.flow, .setup response.command response.agreement⟩) :
      Produces key n (some response) m

variable {n m : Negotiation} {key : AgreementKey} {peer : MacAddress} {flow : UInt8}
  {event : Event} {command : SetupCommand} {agreement : Agreement}

/-! ### Standings -/

theorem standing_eq (key : AgreementKey) (n : Negotiation) :
    n.standing key = ((n.stations.busy? key).map (·.state)).getD .noAgreement := by
  unfold standing
  cases stands : n.stateOf key.address key.flow with
  | none =>
      have unknown : n.stations.get? key.address = none := Option.map_eq_none_iff.mp stands
      simp [StationTable.busy?, StationTable.slot?, unknown]
  | some state =>
      by_cases free : state = .noAgreement
      · subst free
        have unbusy : n.stations.busy? key = none := by
          rw [StationTable.busy?_eq_none_iff]
          intro slot found
          exact Option.some.inj ((stateOf_of_slot? found).symm.trans stands)
        rw [unbusy]
        rfl
      · obtain ⟨slot, found, rfl⟩ := exists_slot_of_stateOf stands free
        rw [StationTable.busy?_eq_some_iff.mpr ⟨found, free⟩]
        rfl

theorem standing_of_busy? (same : m.stations.busy? key = n.stations.busy? key) :
    m.standing key = n.standing key := by
  rw [standing_eq, standing_eq, same]

theorem standing_of_free (free : n.stations.busy? key = none) : n.standing key = .noAgreement := by
  rw [standing_eq, free]
  rfl

theorem standing_of_slot? {slot : Slot} (found : n.stations.slot? key = some slot) :
    n.standing key = slot.state := by
  rw [standing, stateOf_of_slot? found]
  rfl

/-- Only a slot can say that a flow is not free. -/
theorem exists_slot_of_standing {state : AgreementState} (stands : n.standing key = state)
    (notFree : state ≠ .noAgreement) :
    ∃ slot, n.stations.slot? key = some slot ∧ slot.state = state := by
  unfold standing at stands
  cases found : n.stateOf key.address key.flow with
  | none =>
      rw [found] at stands
      exact absurd stands.symm notFree
  | some held =>
      rw [found] at stands
      exact exists_slot_of_stateOf (found.trans (congrArg some stands)) notFree

/-! ### Responses -/

/-- What is done to slots and schedule before a response leaves does not matter. -/
theorem Produces.of_same {middle : Negotiation} {response : Response}
    (produces : Produces key middle (some response) m) (tasks : middle.tasks = n.tasks)
    (answers : middle.answers = n.answers)
    (note : middle.stations.note? key.address = n.stations.note? key.address) :
    Produces key n (some response) m := by
  cases produces with
  | inFrame noted sent fewer =>
      exact .inFrame (note.symm.trans noted) (tasks ▸ sent) (answers ▸ fewer)
  | waits unnoted quiet pushed =>
      exact .waits (note.symm.trans unnoted) (quiet.trans tasks) (answers ▸ pushed)

theorem produces_respond {slot : Slot} {conclusion : Option Conclusion}
    (distinct : n.stations.Distinct) (found : n.stations.slot? ⟨peer, flow⟩ = some slot) :
    Produces ⟨peer, flow⟩ n (some ⟨command, agreement⟩)
      (n.respond ⟨peer, flow, .setup command agreement⟩ conclusion) := by
  let answer : Event := ⟨peer, flow, .setup command agreement⟩
  have response := responded answer conclusion n
  generalize n.respond answer conclusion = m at response ⊢
  cases response with
  | unknown absent =>
      have known : n.stations.contains peer = true := StationTable.contains_of_slot? found
      rw [StationTable.contains, show n.stations.get? peer = none from absent] at known
      cases known
  | waiting unnoted => exact .waits unnoted rfl rfl
  | left _ noted sends => exact .inFrame noted (sends agreement rfl) (List.Sublist.refl _)
  | @concluded token tasks c _ noted sends =>
      let silenced : Negotiation := { n with stations := n.stations.withoutNote peer, tasks }
      have ended : Quiet silenced (silenced.conclude answer c) :=
        quiet_conclude (StationTable.distinct_withoutNote distinct)
      exact .inFrame noted (ended.tasks.trans (sends agreement rfl))
        (answers_conclude_sublist answer c silenced)

/-- A response that waits leaves its flow as it is, and so does one that concludes nothing. One that
leaves in an action frame concludes the negotiation. -/
theorem standing_respond {slot : Slot} {conclusion : Option Conclusion} (orderly : n.Orderly)
    (found : n.stations.slot? ⟨peer, flow⟩ = some slot) :
    (n.respond ⟨peer, flow, .setup command agreement⟩ conclusion).standing ⟨peer, flow⟩ =
      match n.stations.note? peer, conclusion with
      | some _, some .established => .agreement
      | some _, some .cleared => .noAgreement
      | _, _ => slot.state := by
  let answer : Event := ⟨peer, flow, .setup command agreement⟩
  have response := responded answer conclusion n
  generalize n.respond answer conclusion = m at response ⊢
  have stays : (n.stations.withoutNote peer).slot? ⟨peer, flow⟩ = some slot :=
    StationTable.slot?_withoutNote.trans found
  cases response with
  | unknown absent =>
      have known : n.stations.contains peer = true := StationTable.contains_of_slot? found
      rw [StationTable.contains, show n.stations.get? peer = none from absent] at known
      cases known
  | waiting unnoted =>
      rw [show n.stations.note? peer = none from unnoted]
      exact standing_of_slot? found
  | left pending noted =>
      subst pending
      rw [show n.stations.note? peer = _ from noted]
      exact standing_of_slot? stays
  | @concluded token tasks c ends noted =>
      subst ends
      rw [show n.stations.note? peer = _ from noted]
      let silenced : Negotiation := { n with stations := n.stations.withoutNote peer, tasks }
      have left : Neutral n { n with stations := n.stations.withoutNote peer, tasks } :=
        neutral_modify orderly (fun _ => rfl) (fun _ => rfl)
      cases c with
      | established =>
          have stillFound : silenced.stations.slot? answer.key = some slot := stays
          have held : (silenced.conclude answer .established).stations.busy? ⟨peer, flow⟩ =
              some ⟨.agreement, some agreement⟩ := busy?_conclude_established stillFound rfl
          rw [standing_eq, held]
          rfl
      | cleared => exact standing_of_free (busy?_conclude_cleared answer left.orderly)

/-! ### Rejections and acceptances -/

/-- A rejection that leaves in an action frame frees a flow that has no agreement. -/
theorem produces_reject {slot : Slot} (agreement : Agreement) (orderly : n.Orderly)
    (found : n.stations.slot? ⟨peer, flow⟩ = some slot) :
    Produces ⟨peer, flow⟩ n (some ⟨.reject, agreement.refused⟩) (n.reject peer flow agreement) ∧
      (n.reject peer flow agreement).standing ⟨peer, flow⟩ =
        if (n.stations.note? peer).isSome ∧ slot.state ≠ .agreement then .noAgreement
        else slot.state := by
  refine ⟨?_, ?_⟩
  · rw [← Agreement.withCommand_reject]
    exact produces_respond orderly.distinct found
  · rw [reject, standing_respond orderly found, stateOf_of_slot? found]
    by_cases agreed : slot.state = .agreement
    · cases n.stations.note? peer <;> simp [agreed]
    · cases n.stations.note? peer <;> simp [agreed]

/-- An acceptance is a rejection if the schedule has no place. If it leaves in an action frame, its
flow is in agreement then, and free without a place. -/
theorem produces_accept {slot : Slot} (agreement : Agreement) (orderly : n.Orderly)
    (found : n.stations.slot? ⟨peer, flow⟩ = some slot)
    (considering : slot.state.isConsidering = true)
    (accepting : command = .request ∨ command = .suggest) :
    let response := firstResponse command agreement (n.place? ⟨peer, flow⟩ command agreement)
    let m := n.accept peer flow command agreement
    Produces ⟨peer, flow⟩ n (some response) m ∧
      m.standing ⟨peer, flow⟩ =
        if (n.stations.note? peer).isSome then
          if response.command = .accept then .agreement else .noAgreement
        else slot.state := by
  dsimp only
  rw [accept_eq]
  unfold place?
  dsimp only
  generalize outcome : n.schedule.schedule ⟨peer, flow⟩ agreement command
    n.stations.servicePeriod? = result
  obtain ⟨error | scheduled, schedule⟩ := result
  case error =>
    have rejects : firstResponse command agreement none = ⟨.reject, agreement.refused⟩ := by
      rcases accepting with rfl | rfl <;> rfl
    have unagreed : slot.state ≠ .agreement := fun agreed => by
      rw [agreed] at considering
      cases considering
    have lost : { n with schedule }.Orderly := (concerns_refused orderly outcome).orderly
    obtain ⟨produces, stands⟩ := produces_reject agreement lost found
    rw [rejects, stands]
    exact ⟨produces.of_same rfl rfl rfl, by simp [unagreed]⟩
  case ok =>
    let granted := (scheduled.withCommand .accept).updateParameters
    have accepts : firstResponse command agreement (some granted) = ⟨.accept, granted⟩ := by
      rcases accepting with rfl | rfl <;> rfl
    have busy : n.stations.busy? ⟨peer, flow⟩ ≠ none :=
      StationTable.busy?_of_slot found (ne_noAgreement_of_isConsidering considering)
    have placed := concerns_granted orderly busy outcome
    have held := concerns_setAgreement peer flow (some granted) placed.orderly
    have withAnswer : (n.stations.modifySlots peer (·.setAgreement flow (some granted))).slot?
        ⟨peer, flow⟩ = some { slot with agreement := some granted } := by
      rw [StationTable.slot?_setAgreement, if_pos rfl, found]
      rfl
    rw [accepts]
    refine ⟨(produces_respond held.orderly.distinct withAnswer).of_same rfl rfl
      (StationTable.note?_modifySlots _), ?_⟩
    rw [standing_respond held.orderly withAnswer, StationTable.note?_modifySlots]
    cases n.stations.note? peer <;> rfl

/-! ### Requests -/

/-- A flow that is taken up keeps its slot otherwise. -/
theorem slot?_setState_self {slot : Slot} (found : n.stations.slot? ⟨peer, flow⟩ = some slot)
    (state : AgreementState) :
    (n.setState peer flow state).stations.slot? ⟨peer, flow⟩ = some { slot with state } := by
  rw [setState, StationTable.slot?_setState, if_pos rfl, found]
  rfl

/-- A request or suggestion is taken up, and then accepted if the schedule has a place. -/
theorem produces_accept_setState (agreement : Agreement) {slot : Slot} {state : AgreementState}
    (orderly : n.Orderly) (found : n.stations.slot? ⟨peer, flow⟩ = some slot)
    (accepting : command = .request ∨ command = .suggest)
    (considering : state.isConsidering = true) :
    let response := firstResponse command agreement (n.place? ⟨peer, flow⟩ command agreement)
    let m := (n.setState peer flow state).accept peer flow command agreement
    Produces ⟨peer, flow⟩ n (some response) m ∧
      m.standing ⟨peer, flow⟩ =
        if (n.stations.note? peer).isSome then
          if response.command = .accept then .agreement else .noAgreement
        else state := by
  have opened : (n.setState peer flow state).Orderly :=
    (concerns_setState orderly (ne_noAgreement_of_isConsidering considering)).orderly
  have sameNote : (n.setState peer flow state).stations.note? peer = n.stations.note? peer :=
    StationTable.note?_modifySlots _
  have samePlace : (n.setState peer flow state).place? ⟨peer, flow⟩ command agreement =
      n.place? ⟨peer, flow⟩ command agreement := by
    rw [place?, setState, StationTable.servicePeriod?_setState, place?]
  have accepted := produces_accept agreement opened (slot?_setState_self found state) considering
    accepting
  rw [samePlace, sameNote] at accepted
  exact ⟨accepted.1.of_same rfl rfl sameNote, accepted.2⟩

/-- A demand is taken up, and then rejected. -/
theorem produces_reject_setState (agreement : Agreement) {slot : Slot} {state : AgreementState}
    (orderly : n.Orderly) (found : n.stations.slot? ⟨peer, flow⟩ = some slot)
    (considering : state.isConsidering = true) :
    let m := (n.setState peer flow state).reject peer flow agreement
    Produces ⟨peer, flow⟩ n (some ⟨.reject, agreement.refused⟩) m ∧
      m.standing ⟨peer, flow⟩ =
        if (n.stations.note? peer).isSome then .noAgreement else state := by
  have opened : (n.setState peer flow state).Orderly :=
    (concerns_setState orderly (ne_noAgreement_of_isConsidering considering)).orderly
  have sameNote : (n.setState peer flow state).stations.note? peer = n.stations.note? peer :=
    StationTable.note?_modifySlots _
  have unagreed : state ≠ .agreement := by
    rintro rfl
    cases considering
  obtain ⟨produces, stands⟩ :=
    produces_reject agreement opened (slot?_setState_self found state)
  rw [sameNote] at stands
  exact ⟨produces.of_same rfl rfl sameNote, by simpa [unagreed] using stands⟩

/-- A request for a free flow is taken up, and then answered. -/
theorem produces_consider (agreement : Agreement) {slot : Slot} (orderly : n.Orderly)
    (found : n.stations.slot? ⟨peer, flow⟩ = some slot) (requests : command.isRequest = true) :
    let response := firstResponse command agreement (n.place? ⟨peer, flow⟩ command agreement)
    let m := n.consider peer flow command agreement
    Produces ⟨peer, flow⟩ n (some response) m ∧
      m.standing ⟨peer, flow⟩ =
        if (n.stations.note? peer).isSome then
          if response.command = .accept then .agreement else .noAgreement
        else awaiting command := by
  unfold consider
  rw [found]
  cases command with
  | request => exact produces_accept_setState agreement orderly found (.inl rfl) rfl
  | suggest => exact produces_accept_setState agreement orderly found (.inr rfl) rfl
  | demand | grouping => exact produces_reject_setState agreement orderly found rfl
  | accept | alternate | dictate | reject => cases requests

/-- The row of the table for a request in a state. -/
def row (key : AgreementKey) (command : SetupCommand) (agreement : Agreement) (n : Negotiation) :
    Option Response × AgreementState :=
  transition command agreement (n.place? key command agreement)
    (n.answers.contains key.address key.flow) (n.stations.note? key.address).isSome (n.standing key)

/-- A request of a station that has a place in the table is answered at once. -/
theorem handleEvent_of_request {stations : StationTable} (responds : n.responder = true)
    (body : event.body = .setup command agreement) (requests : command.isRequest = true)
    (ensured : n.stations.ensure event.source = .ok stations) :
    n.handleEvent event = ({ n with stations }.answerRequest event.source event.flow command
      agreement ({ n with stations }.standing event.key), false) := by
  simp only [handleEvent, body, requests, responds, ensured, if_true]
  rfl

/-- A request of a station that is known, or that the table has a place for, is taken up at once and
does what the table says. -/
theorem row_handleEvent (orderly : n.Orderly) (responds : n.responder = true)
    (body : event.body = .setup command agreement) (requests : command.isRequest = true)
    (small : event.flow.toNat < 8)
    (fits : n.stations.contains event.source = true ∨ n.stations.size < n.stations.capacity) :
    (n.handleEvent event).2 = false ∧
      Produces event.key n (n.row event.key command agreement).1 (n.handleEvent event).1 ∧
      (n.handleEvent event).1.standing event.key = (n.row event.key command agreement).2 := by
  obtain ⟨stations, ensured⟩ := StationTable.exists_ensure fits
  have extended := neutral_ensure orderly ensured
  have sameStanding : { n with stations }.standing event.key = n.standing event.key :=
    standing_of_busy? (extended.flows event.key).slot
  rw [handleEvent_of_request responds body requests ensured, sameStanding]
  refine ⟨rfl, ?_⟩
  -- Only a station that is known has a flow that is not free, and then there is none to be added.
  have unchanged (busy : n.standing event.key ≠ .noAgreement) : { n with stations } = n := by
    have known : n.stations.contains event.source = true := by
      obtain ⟨slot, held⟩ : ∃ slot, n.stations.busy? event.key = some slot := by
        rw [← Option.ne_none_iff_exists']
        exact fun free => busy (standing_of_free free)
      exact contains_of_busy? held
    rw [StationTable.ensure, if_pos known] at ensured
    rw [← Except.ok.inj ensured]
  unfold row
  cases stands : n.standing event.key with
  | noAgreement =>
      obtain ⟨slot, found⟩ := StationTable.exists_slot_of_ensure ensured small
      have samePlace : { n with stations }.place? ⟨event.source, event.flow⟩ command agreement =
          n.place? event.key command agreement := by
        rw [place?, StationTable.servicePeriod?_of_ensure ensured, place?, Event.key]
      have sameNote : stations.note? event.source = n.stations.note? event.source :=
        StationTable.note?_of_ensure ensured
      have considered := produces_consider (n := { n with stations }) agreement
        extended.orderly found requests
      rw [samePlace, sameNote] at considered
      exact ⟨considered.1.of_same rfl rfl sameNote, considered.2⟩
  | considerRequest | considerSuggest | considerDemand | considerGrouping =>
      rw [unchanged (by simp [stands])]
      exact ⟨.nothing, stands⟩
  | agreement =>
      rw [unchanged (by simp [stands])]
      obtain ⟨slot, found, agreed⟩ := exists_slot_of_standing stands (by simp)
      by_cases waits : n.answers.contains event.source event.flow = true
      · have ignored : n.answerRequest event.source event.flow command agreement .agreement = n :=
          if_pos waits
        rw [ignored, show n.answers.contains event.key.address event.key.flow = true from waits]
        exact ⟨.nothing, stands⟩
      · have refused : n.answerRequest event.source event.flow command agreement .agreement =
            n.reject event.source event.flow agreement := if_neg waits
        rw [refused, show n.answers.contains event.key.address event.key.flow = false from
          Bool.not_eq_true _ ▸ waits]
        obtain ⟨produces, stays⟩ := produces_reject agreement orderly found
        exact ⟨produces, stays.trans (by simp [agreed, transition])⟩

/-! ### Runs -/

/-- All along the run of a responder, every request that a handling takes up does what the table
says, if its flow is one of the eight and its station is known or finds a place. -/
theorem request_follows_row (settings : Settings) (operations : List Operation)
    (responds : settings.responder = true) :
    ∀ step ∈ steps (new settings) operations, ∀ taken ∈ step.2.handlings step.1,
      ∀ command agreement, taken.1.body = .setup command agreement → command.isRequest = true →
        taken.1.flow.toNat < 8 →
          (taken.2.stations.contains taken.1.source = true ∨
            taken.2.stations.size < taken.2.stations.capacity) →
            (taken.2.handleEvent taken.1).2 = false ∧
              Produces taken.1.key taken.2 (taken.2.row taken.1.key command agreement).1
                (taken.2.handleEvent taken.1).1 ∧
              (taken.2.handleEvent taken.1).1.standing taken.1.key =
                (taken.2.row taken.1.key command agreement).2 := by
  intro step member taken handled command agreement body requests small fits
  have reached : step.1.Orderly ∧ step.1.responder = true :=
    invariant_of_apply (fun n => n.Orderly ∧ n.responder = true)
      (fun n operation holds =>
        ⟨orderly_apply holds.1 operation, (responder_apply n operation).trans holds.2⟩)
      ⟨orderly_new settings, responds⟩ step.1 (Runs.mem_of_mem_steps member).1
  obtain ⟨n, operation⟩ := step
  cases operation with
  | handleEvents source =>
      have opened : (n.opened source).Orderly ∧ (n.opened source).responder = true :=
        ⟨reached.1.congr rfl rfl, reached.2⟩
      obtain ⟨orderly, stillResponds⟩ :=
        invariant_of_handleEvent (fun n => n.Orderly ∧ n.responder = true)
          (fun n event holds => ⟨(concerns_handleEvent holds.1 event).orderly,
            (congrArg Surroundings.responder (surroundings_handleEvent event n)).trans holds.2⟩)
          opened taken handled
      exact row_handleEvent orderly stillResponds body requests small fits
  | _ => cases handled

/-- Of two rivals for all of an interval the second one is refused, and free again, in the action
frame that it waits for. -/
theorem request_follows_row_rivals :
    ∃ taken ∈ (Operation.handleEvents none).handlings (run (new .accessPoint) rivals),
      ∃ refusal : Response, taken.1.source = ⟨2, 0, 0, 0, 0, 2⟩ ∧ refusal.command = .reject ∧
        Produces taken.1.key taken.2 (some refusal) (taken.2.handleEvent taken.1).1 ∧
        (taken.2.handleEvent taken.1).1.standing taken.1.key = .noAgreement := by
  let asked : Agreement := Agreement.ofParameters .zero
    { Parameters.zero with
      requestType := { RequestType.zero with request := true, implicit := true }
      minimumDuration := 4
      mantissa := 1024 }
  let opened := (run (new .accessPoint) rivals).opened none
  let taken : Event × Negotiation :=
    (.setup ⟨2, 0, 0, 0, 0, 2⟩ asked, (opened.handleEvent (.setup ⟨2, 0, 0, 0, 0, 1⟩ asked)).1)
  have member :
      taken ∈ (Operation.handleEvents none).handlings (run (new .accessPoint) rivals) := by
    decide +kernel
  have refused : taken.2.row taken.1.key .request asked =
      (some ⟨.reject, asked.refused⟩, .noAgreement) := by
    decide +kernel
  obtain ⟨-, produces, stands⟩ :=
    request_follows_row .accessPoint (rivals ++ [.handleEvents none]) rfl
      (run (new .accessPoint) rivals, .handleEvents none)
      (List.mem_cons_of_mem _ (List.mem_cons_of_mem _ List.mem_cons_self)) taken member .request
      asked rfl rfl (by decide +kernel) (.inl (by decide +kernel))
  rw [refused] at produces stands
  exact ⟨taken, member, _, rfl, rfl, produces, stands⟩

end Negotiation

end TargetWakeTime
