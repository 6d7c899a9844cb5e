import TargetWakeTime.Proofs.Negotiation.Alignment

/-!
Contract: what the handling of an event does to the groups of the schedule.

Owns:
- the three ways in which groups change: not at all, by members that leave, or by one flow that
  gets a place;
- that the handling of any event changes the groups in one of these ways, and that a flow gets a
  place only on its own request.

What is told about a member is its service period, so that a slot may be written again with the same
timing.
-/

namespace TargetWakeTime.Negotiation

/-- Groups and periods stay. -/
structure Unmoved (n m : Negotiation) : Prop where
  schedule : m.schedule = n.schedule
  periods : ∀ key, m.stations.servicePeriod? key = n.stations.servicePeriod? key

/-- Members may leave; those that stay keep their order and their periods. -/
structure Shrunk (n m : Negotiation) : Prop where
  entries : ∀ interval, (m.schedule.entries interval).Sublist (n.schedule.entries interval)
  periods : ∀ key p, m.stations.servicePeriod? key = some p →
    n.stations.servicePeriod? key = some p

/-- A flow gets the place that it asks for. -/
structure Granted (key : AgreementKey) (agreement : Agreement) (n m : Negotiation) : Prop where
  placed : ∃ command scheduled, command ≠ .demand ∧
    n.schedule.schedule key agreement command n.stations.servicePeriod? =
      (.ok scheduled, m.schedule) ∧
    m.stations.servicePeriod? key = some (.ofAgreement scheduled)
  others : ∀ other, other ≠ key →
    m.stations.servicePeriod? other = n.stations.servicePeriod? other

/-- The ways in which groups change on behalf of a flow. -/
inductive Regrouped (key : AgreementKey) (body : Event.Body) (n m : Negotiation) : Prop where
  | shrunk (shrunk : Shrunk n m)
  | granted {command : SetupCommand} {agreement : Agreement}
      (asks : body = .setup command agreement) (free : n.stations.agreement? key = none)
      (granted : Granted key agreement n m)

variable {n m middle : Negotiation} {peer : MacAddress} {flow : UInt8} {key : AgreementKey}
  {event : Event} {body : Event.Body}

theorem Unmoved.refl (n : Negotiation) : Unmoved n n := ⟨rfl, fun _ => rfl⟩

theorem Unmoved.trans (first : Unmoved n middle) (second : Unmoved middle m) : Unmoved n m :=
  ⟨second.schedule.trans first.schedule,
    fun key => (second.periods key).trans (first.periods key)⟩

theorem Unmoved.shrunk (unmoved : Unmoved n m) : Shrunk n m where
  entries interval := by
    have same : m.schedule.entries interval = n.schedule.entries interval :=
      congrArg (Schedule.entries interval) unmoved.schedule
    exact same ▸ List.Sublist.refl _
  periods key p holds := by rwa [unmoved.periods key] at holds

theorem Shrunk.of_unmoved (unmoved : Unmoved n middle) (shrunk : Shrunk middle m) :
    Shrunk n m where
  entries interval := by
    rw [← unmoved.schedule]
    exact shrunk.entries interval
  periods key p holds := by
    rw [← unmoved.periods key]
    exact shrunk.periods key p holds

/-- Groups that nothing has changed are regrouped as they stand. -/
theorem Regrouped.of_unmoved (unmoved : Unmoved n middle)
    (regrouped : Regrouped key body middle m) : Regrouped key body n m := by
  cases regrouped with
  | shrunk shrunk => exact .shrunk (shrunk.of_unmoved unmoved)
  | granted asks free granted =>
      have sameLookup : middle.stations.servicePeriod? = n.stations.servicePeriod? :=
        funext unmoved.periods
      refine .granted asks ?_ ⟨?_, fun other apart => ?_⟩
      · have same := unmoved.periods key
        rw [StationTable.servicePeriod?, free] at same
        exact Option.map_eq_none_iff.mp same.symm
      · obtain ⟨command, scheduled, notDemand, found, holds⟩ := granted.placed
        rw [unmoved.schedule, sameLookup] at found
        exact ⟨command, scheduled, notDemand, found, holds⟩
      · rw [granted.others other apart, unmoved.periods other]

/-! ### Ends of a negotiation -/

theorem unmoved_setState {state : AgreementState} : Unmoved n (n.setState peer flow state) where
  schedule := rfl
  periods key := by
    rw [StationTable.servicePeriod?, setState, StationTable.agreement?_setState]
    rfl

theorem shrunk_dropStation (consistent : n.Consistent) : Shrunk n (n.dropStation peer) where
  entries interval := by
    rw [dropStation, Schedule.entries_removeAll consistent.wellFormed]
    exact List.filter_sublist
  periods key p holds := by
    rw [StationTable.servicePeriod?, dropStation,
      StationTable.agreement?_remove consistent.distinct] at holds
    split at holds
    · cases holds
    · exact holds

theorem shrunk_withdraw (consistent : n.Consistent) :
    Shrunk n { n.setState peer flow .noAgreement with
      schedule := n.schedule.remove ⟨peer, flow⟩
      stations := (n.setState peer flow .noAgreement).stations.modifySlots peer
        (·.setAgreement flow none) } where
  entries interval := by
    rw [Schedule.entries_remove consistent.wellFormed]
    exact List.filter_sublist
  periods key p holds := by
    rw [StationTable.servicePeriod?, StationTable.agreement?_setAgreement] at holds
    split at holds
    case isTrue =>
      obtain ⟨a, held, -⟩ := Option.map_eq_some_iff.mp holds
      obtain ⟨slot, -, none⟩ := Option.bind_eq_some_iff.mp held
      cases none
    case isFalse =>
      rw [setState, StationTable.agreement?_setState] at holds
      exact holds

theorem Shrunk.trans (first : Shrunk n middle) (second : Shrunk middle m) : Shrunk n m where
  entries interval := (second.entries interval).trans (first.entries interval)
  periods key p holds := first.periods key p (second.periods key p holds)

theorem shrunk_collectIdle (consistent : n.Consistent) : Shrunk n (n.collectIdle peer) := by
  unfold collectIdle
  split
  · split
    · exact shrunk_dropStation consistent
    · exact (Unmoved.refl n).shrunk
  · exact (Unmoved.refl n).shrunk

theorem shrunk_conclude_cleared (consistent : n.Consistent) :
    Shrunk n (n.conclude event .cleared) := by
  unfold conclude
  split
  · exact (Unmoved.refl n).shrunk
  · exact (shrunk_withdraw consistent).trans (shrunk_collectIdle (Aligned.withdraw consistent))

/-- The second write of an agreement with the same timing moves nothing. -/
theorem unmoved_conclude_established {command : SetupCommand} {held agreement : Agreement}
    (holds : n.stations.agreement? ⟨peer, flow⟩ = some held)
    (sameTiming : ServicePeriod.ofAgreement held = .ofAgreement agreement) :
    Unmoved n (n.conclude ⟨peer, flow, .setup command agreement⟩ .established) := by
  obtain ⟨slot, found, -⟩ := StationTable.exists_slot_of_agreement? holds
  simp only [conclude, found, Event.agreement?]
  refine ⟨rfl, fun key => ?_⟩
  rw [StationTable.servicePeriod?, StationTable.agreement?_setAgreement, setState,
    StationTable.slot?_setState, StationTable.agreement?_setState]
  split
  case isTrue same =>
    subst same
    rw [found, StationTable.servicePeriod?, holds]
    exact congrArg some sameTiming.symm
  case isFalse => rfl

/-! ### Frames -/

/-- A new station, and what is noted beside the slots of a station, move nothing. -/
theorem unmoved_of_ensure {extended : StationTable} {f : Station → Station}
    (ensured : n.stations.ensure peer = .ok extended)
    (keepsAddress : ∀ station, (f station).address = station.address)
    (keepsSlots : ∀ station, (f station).slots = station.slots) :
    Unmoved n { n.queueEvent event with stations := extended.modify peer f } where
  schedule := rfl
  periods key := by
    have sameSlots : (extended.modify peer f).slot? key = extended.slot? key :=
      StationTable.slot?_modify_of_slots keepsAddress keepsSlots
    have sameAgreement : extended.agreement? key = n.stations.agreement? key :=
      StationTable.agreement?_of_ensure ensured
    simp only [StationTable.servicePeriod?, ← sameAgreement]
    simp only [StationTable.agreement?, sameSlots]

/-! ### Answers -/

/-- Letting an answer out moves nothing before the conclusion. -/
theorem unmoved_withoutNote {tasks : List Task} :
    Unmoved n { n with stations := n.stations.withoutNote peer, tasks } where
  schedule := rfl
  periods key := by
    simp only [StationTable.servicePeriod?, StationTable.agreement?, StationTable.slot?_withoutNote]

theorem shrunk_reject {agreement : Agreement} (consistent : n.Consistent) :
    Shrunk n (n.reject peer flow agreement) := by
  unfold reject
  dsimp only
  have response := responded ⟨peer, flow, .setup .reject (agreement.withCommand .reject)⟩
    (if n.stateOf peer flow == some .agreement then none else some .cleared) n
  generalize n.respond _ _ = m at response ⊢
  cases response with
  | unknown => exact (Unmoved.refl n).shrunk
  | waiting => exact ⟨fun _ => List.Sublist.refl _, fun _ _ holds => holds⟩
  | left => exact unmoved_withoutNote.shrunk
  | @concluded token tasks c ends =>
      have cleared : c = .cleared := by
        split at ends
        · cases ends
        · exact (Option.some.inj ends).symm
      subst cleared
      refine Shrunk.of_unmoved unmoved_withoutNote (shrunk_conclude_cleared ?_)
      exact Aligned.modify consistent (fun _ => rfl) (fun _ => rfl)

/-- An acceptance that carries what the slot holds moves nothing. -/
theorem unmoved_respond_accept {agreement : Agreement}
    (holds : n.stations.agreement? ⟨peer, flow⟩ = some agreement) :
    Unmoved n (n.respond ⟨peer, flow, .setup .accept agreement⟩ (some .established)) := by
  have response := responded ⟨peer, flow, .setup .accept agreement⟩ (some .established) n
  generalize n.respond _ _ = m at response ⊢
  cases response with
  | unknown => exact .refl n
  | waiting => exact ⟨rfl, fun _ => rfl⟩
  | left => exact unmoved_withoutNote
  | concluded ends =>
      cases ends
      refine unmoved_withoutNote.trans (unmoved_conclude_established ?_ rfl)
      rw [StationTable.agreement?, StationTable.slot?_withoutNote]
      exact holds

theorem granted_accept {slot : Slot} {command : SetupCommand} {agreement scheduled : Agreement}
    {schedule : Schedule} (found : n.stations.slot? ⟨peer, flow⟩ = some slot)
    (notDemand : command ≠ .demand)
    (granted : n.schedule.schedule ⟨peer, flow⟩ agreement command n.stations.servicePeriod? =
      (.ok scheduled, schedule)) :
    let carried := (scheduled.withCommand .accept).updateParameters
    let stored : Negotiation := { n with
      schedule
      stations := n.stations.modifySlots peer (·.setAgreement flow (some carried)) }
    Granted ⟨peer, flow⟩ agreement n
      (stored.respond ⟨peer, flow, .setup .accept carried⟩ (some .established)) := by
  intro carried stored
  have holds : ∀ key, stored.stations.agreement? key =
      if key = ⟨peer, flow⟩ then some carried else n.stations.agreement? key := by
    intro key
    rw [StationTable.agreement?_setAgreement]
    split
    case isTrue same =>
      rw [same, found]
      rfl
    case isFalse => rfl
  have answered : Unmoved stored
      (stored.respond ⟨peer, flow, .setup .accept carried⟩ (some .established)) :=
    unmoved_respond_accept (by rw [holds, if_pos rfl])
  refine ⟨⟨command, scheduled, notDemand, ?_, ?_⟩, ?_⟩
  · rw [answered.schedule]
    exact granted
  · rw [answered.periods, StationTable.servicePeriod?, holds, if_pos rfl]
    rfl
  · intro other apart
    rw [answered.periods, StationTable.servicePeriod?, holds, if_neg apart]
    rfl

theorem regrouped_accept {slot : Slot} {command : SetupCommand} {agreement : Agreement}
    (consistent : n.Consistent) (found : n.stations.slot? ⟨peer, flow⟩ = some slot)
    (free : slot.agreement = none) (notDemand : command ≠ .demand)
    (asks : body = .setup command agreement) :
    Regrouped ⟨peer, flow⟩ body n (n.accept peer flow command agreement) := by
  have holdsNone : n.stations.agreement? ⟨peer, flow⟩ = none := by
    simp [StationTable.agreement?, found, free]
  rw [accept_eq]
  dsimp only
  split
  case h_1 error schedule refused =>
    have same : ∀ interval, schedule.entries interval = n.schedule.entries interval := by
      intro interval
      rcases Schedule.schedule_error refused with rfl | rfl
      · rfl
      · exact Schedule.entries_remove_of_notMem consistent.wellFormed
          (consistent.notMem_of_agreement?_eq_none holdsNone interval)
    have rejected : Shrunk { n with schedule } ({ n with schedule }.reject peer flow agreement) :=
      shrunk_reject (Aligned.refuse consistent refused holdsNone)
    refine .shrunk ⟨fun interval => ?_, rejected.periods⟩
    rw [← same interval]
    exact rejected.entries interval
  case h_2 scheduled schedule granted =>
    exact .granted asks holdsNone (granted_accept found notDemand granted)

/-! ### Events -/

theorem regrouped_consider {command : SetupCommand} {agreement : Agreement}
    (consistent : n.Consistent)
    (free : ∀ slot, n.stations.slot? ⟨peer, flow⟩ = some slot → slot.state = .noAgreement)
    (asks : body = .setup command agreement) :
    Regrouped ⟨peer, flow⟩ body n (n.consider peer flow command agreement) := by
  unfold consider
  split
  · exact .shrunk (Unmoved.refl n).shrunk
  case h_2 slot found =>
    have settled := consistent.settled _ slot found (free slot found)
    have opened (state : AgreementState) (considering : state.isConsidering = true) :
        (n.setState peer flow state).Consistent :=
      Aligned.setState consistent considering
    have read (state : AgreementState) :
        (n.setState peer flow state).stations.slot? ⟨peer, flow⟩ = some { slot with state } := by
      rw [setState, StationTable.slot?_setState, if_pos rfl, found]
      rfl
    cases command
    case request | suggest =>
      exact Regrouped.of_unmoved unmoved_setState
        (regrouped_accept (opened _ rfl) (read _) settled (by simp) asks)
    case demand | grouping =>
      exact Regrouped.of_unmoved unmoved_setState (.shrunk (shrunk_reject (opened _ rfl)))
    all_goals exact .shrunk (Unmoved.refl n).shrunk

theorem regrouped_answerRequest {command : SetupCommand} {agreement : Agreement}
    {state : AgreementState} (consistent : n.Consistent)
    (stands : (n.stateOf peer flow).getD .noAgreement = state)
    (asks : body = .setup command agreement) :
    Regrouped ⟨peer, flow⟩ body n (n.answerRequest peer flow command agreement state) := by
  unfold answerRequest
  split
  · refine regrouped_consider consistent (fun slot found => ?_) asks
    simpa [stateOf_of_slot? found] using stands
  case h_6 =>
    split
    · exact .shrunk (Unmoved.refl n).shrunk
    · exact .shrunk (shrunk_reject consistent)
  all_goals exact .shrunk (Unmoved.refl n).shrunk

theorem unmoved_of_responderPart (same : m.responderPart = n.responderPart) : Unmoved n m where
  schedule := congrArg ResponderPart.schedule same
  periods key := by
    rw [show m.stations = n.stations from congrArg ResponderPart.stations same]

theorem shrunk_handleTeardown (consistent : n.Consistent) : Shrunk n (n.handleTeardown event) := by
  unfold handleTeardown
  split
  · exact (unmoved_of_responderPart (responderPart_handleOwnTeardown event n)).shrunk
  · split
    · split
      · exact (Unmoved.refl n).shrunk
      · exact (Unmoved.refl n).shrunk
      · exact shrunk_conclude_cleared consistent
    · exact (Unmoved.refl n).shrunk

/-- The handling of an event takes members out of groups, or gives a place to the flow that asks. -/
theorem regrouped_handleEvent (consistent : n.Consistent) (event : Event) :
    Regrouped event.key event.body n (n.handleEvent event).1 := by
  unfold handleEvent
  split
  case h_1 => exact .shrunk (shrunk_handleTeardown consistent)
  case h_2 command agreement asks =>
    split
    · split
      · split
        · exact .shrunk (Unmoved.refl n).shrunk
        case h_2 stations ensured =>
          have extended : { n with stations }.Consistent := Aligned.ensure consistent ensured
          have unmoved : Unmoved n { n with stations } := by
            refine ⟨rfl, fun key => ?_⟩
            rw [StationTable.servicePeriod?, StationTable.agreement?_of_ensure ensured]
            rfl
          exact Regrouped.of_unmoved unmoved (regrouped_answerRequest extended rfl asks)
      · exact .shrunk (Unmoved.refl n).shrunk
    · split
      · exact .shrunk
          (unmoved_of_responderPart (responderPart_handleAnswer event command n)).shrunk
      · exact .shrunk (Unmoved.refl n).shrunk

end TargetWakeTime.Negotiation
