import TargetWakeTime.Proofs.Negotiation.Outcome
import TargetWakeTime.Proofs.Schedule.Membership
import TargetWakeTime.Proofs.StationTable

/-!
Contract: the schedule and the slots of the stations tell the same.

Owns the invariant that a key is a member of an interval exactly if its slot holds an agreement of
that interval, and its preservation by everything that can be done to a negotiation state. The one
operation that can break it takes out a waiting acceptance for a flow under consideration: the slot
is written a second time, with what the answer carries.
-/

namespace TargetWakeTime

/-- A schedule lists exactly the agreements that the slots of a table hold. -/
structure Aligned (t : StationTable) (s : Schedule) : Prop where
  distinct : t.Distinct
  wellFormed : s.WellFormed
  /-- A flow without agreement holds none. -/
  settled : ∀ key slot,
    t.slot? key = some slot → slot.state = .noAgreement → slot.agreement = none
  /-- A flow in agreement holds one. -/
  agreed : ∀ key slot,
    t.slot? key = some slot → slot.state = .agreement → slot.agreement.isSome
  listed : ∀ key interval,
    key ∈ s.entries interval ↔ ∃ a, t.agreement? key = some a ∧ a.wakeInterval = interval

namespace Aligned

variable {t : StationTable} {s : Schedule} {address : MacAddress} {flow : UInt8}

theorem empty (capacity : Nat) : Aligned { capacity } {} where
  distinct := List.Pairwise.nil
  wellFormed := Schedule.wellFormed_empty
  settled := by simp [StationTable.slot?, StationTable.get?]
  agreed := by simp [StationTable.slot?, StationTable.get?]
  listed := by
    simp [StationTable.agreement?, StationTable.slot?, StationTable.get?, Schedule.entries,
      Schedule.group?]

theorem clear (t : StationTable) : Aligned t.clear {} := empty t.capacity

/-- What is not listed holds no agreement. -/
theorem notMem_of_agreement?_eq_none (aligned : Aligned t s) {key : AgreementKey}
    (none : t.agreement? key = none) (interval : UInt64) : key ∉ s.entries interval := by
  rw [aligned.listed]
  rintro ⟨a, held, -⟩
  rw [none] at held
  cases held

/-! ### Changes of the table alone -/

theorem ensure {extended : StationTable} (aligned : Aligned t s)
    (ensured : t.ensure address = .ok extended) : Aligned extended s where
  distinct := StationTable.distinct_of_ensure ensured aligned.distinct
  wellFormed := aligned.wellFormed
  settled key slot found := by
    rcases StationTable.slot?_of_ensure ensured found with old | ⟨-, rfl⟩
    · exact aligned.settled key slot old
    · exact fun _ => rfl
  agreed key slot found := by
    rcases StationTable.slot?_of_ensure ensured found with old | ⟨-, rfl⟩
    · exact aligned.agreed key slot old
    · exact fun inAgreement => by cases inAgreement
  listed key interval := by
    rw [StationTable.agreement?_of_ensure ensured]
    exact aligned.listed key interval

/-- What stands beside the slots of a station does not matter. -/
theorem modify {f : Station → Station} (aligned : Aligned t s)
    (keepsAddress : ∀ station, (f station).address = station.address)
    (keepsSlots : ∀ station, (f station).slots = station.slots) :
    Aligned (t.modify address f) s where
  distinct := StationTable.distinct_modify keepsAddress aligned.distinct
  wellFormed := aligned.wellFormed
  settled key slot := by
    rw [StationTable.slot?_modify_of_slots keepsAddress keepsSlots]
    exact aligned.settled key slot
  agreed key slot := by
    rw [StationTable.slot?_modify_of_slots keepsAddress keepsSlots]
    exact aligned.agreed key slot
  listed key interval := by
    rw [StationTable.agreement?, StationTable.slot?_modify_of_slots keepsAddress keepsSlots]
    exact aligned.listed key interval

/-- Taking a flow up for consideration. -/
theorem setState {state : AgreementState} (aligned : Aligned t s)
    (considering : state.isConsidering = true) :
    Aligned (t.modifySlots address (·.setState flow state)) s where
  distinct := StationTable.distinct_modifySlots aligned.distinct
  wellFormed := aligned.wellFormed
  settled key slot found free := by
    rw [StationTable.slot?_setState] at found
    split at found
    · obtain ⟨old, -, rfl⟩ := Option.map_eq_some_iff.mp found
      rw [show state = .noAgreement from free] at considering
      cases considering
    · exact aligned.settled key slot found free
  agreed key slot found inAgreement := by
    rw [StationTable.slot?_setState] at found
    split at found
    · obtain ⟨old, -, rfl⟩ := Option.map_eq_some_iff.mp found
      rw [show state = .agreement from inAgreement] at considering
      cases considering
    · exact aligned.agreed key slot found inAgreement
  listed key interval := by
    rw [StationTable.agreement?_setState]
    exact aligned.listed key interval

/-- The second write of an agreement, which may not move it to another interval. -/
theorem establish {held agreement : Agreement} (aligned : Aligned t s)
    (holds : t.agreement? ⟨address, flow⟩ = some held)
    (sameInterval : held.wakeInterval = agreement.wakeInterval) :
    Aligned ((t.modifySlots address (·.setState flow .agreement)).modifySlots address
      (·.setAgreement flow (some agreement))) s where
  distinct := StationTable.distinct_modifySlots
    (StationTable.distinct_modifySlots aligned.distinct)
  wellFormed := aligned.wellFormed
  settled key slot found free := by
    rw [StationTable.slot?_setAgreement, StationTable.slot?_setState] at found
    split at found
    · obtain ⟨-, -, rfl⟩ := by simpa using found
      cases free
    · exact aligned.settled key slot found free
  agreed key slot found inAgreement := by
    rw [StationTable.slot?_setAgreement, StationTable.slot?_setState] at found
    split at found
    · obtain ⟨-, -, rfl⟩ := by simpa using found
      rfl
    · exact aligned.agreed key slot found inAgreement
  listed key interval := by
    rw [aligned.listed, StationTable.agreement?_setAgreement, StationTable.agreement?_setState]
    split
    case isTrue same =>
      obtain ⟨slot, found, -⟩ := StationTable.exists_slot_of_agreement? holds
      subst same
      simp [StationTable.slot?_setState, found, holds, sameInterval]
    case isFalse => exact Iff.rfl

/-! ### Changes of both -/

/-- An agreement is given up. -/
theorem withdraw (aligned : Aligned t s) :
    Aligned ((t.modifySlots address (·.setState flow .noAgreement)).modifySlots address
      (·.setAgreement flow none)) (s.remove ⟨address, flow⟩) where
  distinct := StationTable.distinct_modifySlots
    (StationTable.distinct_modifySlots aligned.distinct)
  wellFormed := Schedule.wellFormed_remove aligned.wellFormed
  settled key slot found free := by
    rw [StationTable.slot?_setAgreement, StationTable.slot?_setState] at found
    split at found
    · obtain ⟨-, -, rfl⟩ := by simpa using found
      rfl
    · exact aligned.settled key slot found free
  agreed key slot found inAgreement := by
    rw [StationTable.slot?_setAgreement, StationTable.slot?_setState] at found
    split at found
    · obtain ⟨-, -, rfl⟩ := by simpa using found
      cases inAgreement
    · exact aligned.agreed key slot found inAgreement
  listed key interval := by
    rw [Schedule.mem_entries_remove aligned.wellFormed, aligned.listed,
      StationTable.agreement?_setAgreement, StationTable.agreement?_setState]
    split
    case isTrue same => simp [same]
    case isFalse apart => simp [apart]

/-- The flows that a station is forgotten with are all that have slots. -/
private theorem mem_flows {flow : UInt8} (small : flow.toNat < 8) :
    flow ∈ (List.range 8).map UInt8.ofNat :=
  List.mem_map.mpr ⟨flow.toNat, List.mem_range.mpr small, UInt8.ofNat_toNat⟩

/-- A station is forgotten, with all its places in the schedule. -/
theorem drop (aligned : Aligned t s) (peer : MacAddress) :
    Aligned (t.remove peer)
      (((List.range 8).map UInt8.ofNat).foldl
        (fun schedule flow => schedule.remove ⟨peer, flow⟩) s) where
  distinct := StationTable.distinct_remove aligned.distinct
  wellFormed := Schedule.wellFormed_removeAll aligned.wellFormed
  settled key slot found := by
    rw [StationTable.slot?_remove aligned.distinct] at found
    split at found
    · cases found
    · exact aligned.settled key slot found
  agreed key slot found := by
    rw [StationTable.slot?_remove aligned.distinct] at found
    split at found
    · cases found
    · exact aligned.agreed key slot found
  listed key interval := by
    rw [Schedule.mem_entries_removeAll aligned.wellFormed, aligned.listed,
      StationTable.agreement?_remove aligned.distinct]
    obtain ⟨owner, keyFlow⟩ := key
    by_cases own : owner = peer
    · subst own
      simp only [if_true, reduceCtorEq, false_and, exists_false, iff_false, not_and]
      rintro ⟨a, held, -⟩ others
      obtain ⟨slot, found, -⟩ := StationTable.exists_slot_of_agreement? held
      exact others keyFlow (mem_flows (StationTable.flow_lt_of_slot? found)) rfl
    · simp [own]

/-- A flow under consideration gets its place. -/
theorem grant {a scheduled agreement : Agreement} {command : SetupCommand}
    {lookup : AgreementKey → Option ServicePeriod} {after : Schedule} {slot : Slot}
    (aligned : Aligned t s)
    (granted : s.schedule ⟨address, flow⟩ a command lookup = (.ok scheduled, after))
    (found : t.slot? ⟨address, flow⟩ = some slot) (considering : slot.state.isConsidering = true)
    (sameInterval : agreement.wakeInterval = a.wakeInterval) :
    Aligned (t.modifySlots address (·.setAgreement flow (some agreement))) after where
  distinct := StationTable.distinct_modifySlots aligned.distinct
  wellFormed := Schedule.wellFormed_schedule aligned.wellFormed granted
  settled key other otherFound free := by
    rw [StationTable.slot?_setAgreement] at otherFound
    split at otherFound
    case isTrue same =>
      rw [same, found] at otherFound
      cases otherFound
      rw [show slot.state = .noAgreement from free] at considering
      cases considering
    case isFalse => exact aligned.settled key other otherFound free
  agreed key other otherFound inAgreement := by
    rw [StationTable.slot?_setAgreement] at otherFound
    split at otherFound
    · obtain ⟨old, -, rfl⟩ := Option.map_eq_some_iff.mp otherFound
      rfl
    · exact aligned.agreed key other otherFound inAgreement
  listed key interval := by
    rw [Schedule.mem_entries_schedule aligned.wellFormed granted,
      StationTable.agreement?_setAgreement]
    split
    case isTrue same => simp [same, found, sameInterval, eq_comm]
    case isFalse => exact aligned.listed key interval

/-- A flow that holds no agreement finds no place. -/
theorem refuse {a : Agreement} {command : SetupCommand} {error : Error} {key : AgreementKey}
    {lookup : AgreementKey → Option ServicePeriod} {after : Schedule} (aligned : Aligned t s)
    (refused : s.schedule key a command lookup = (.error error, after))
    (holdsNone : t.agreement? key = none) : Aligned t after := by
  rcases Schedule.schedule_error refused with rfl | rfl
  · exact aligned
  · refine { aligned with
      wellFormed := Schedule.wellFormed_remove aligned.wellFormed
      listed := fun other interval => ?_ }
    rw [Schedule.entries_remove_of_notMem aligned.wellFormed
      (aligned.notMem_of_agreement?_eq_none holdsNone interval)]
    exact aligned.listed other interval

end Aligned

namespace Negotiation

/-- The schedule lists exactly the agreements that the stations hold. -/
def Consistent (n : Negotiation) : Prop := Aligned n.stations n.schedule

variable {n : Negotiation} {peer : MacAddress} {flow : UInt8} {event : Event}

/-! ### Ends of a negotiation -/

theorem consistent_dropStation (consistent : n.Consistent) : (n.dropStation peer).Consistent :=
  Aligned.drop consistent peer

theorem consistent_collectIdle (consistent : n.Consistent) : (n.collectIdle peer).Consistent := by
  unfold collectIdle
  split
  · split
    · exact consistent_dropStation consistent
    · exact consistent
  · exact consistent

theorem consistent_conclude_cleared (consistent : n.Consistent) :
    (n.conclude event .cleared).Consistent := by
  unfold conclude
  split
  · exact consistent
  · exact consistent_collectIdle (Aligned.withdraw consistent)

theorem consistent_conclude_established {command : SetupCommand} {held agreement : Agreement}
    (consistent : n.Consistent) (holds : n.stations.agreement? ⟨peer, flow⟩ = some held)
    (sameInterval : held.wakeInterval = agreement.wakeInterval) :
    (n.conclude ⟨peer, flow, .setup command agreement⟩ .established).Consistent := by
  unfold conclude
  split
  · exact consistent
  · exact Aligned.establish consistent holds sameInterval

/-! ### Answers -/

/-- An answer leaves no trace in the slots but that of its conclusion. -/
theorem consistent_respond {answer : Event} {conclusion : Option Conclusion}
    (consistent : n.Consistent)
    (concludes : ∀ m : Negotiation, m.Consistent →
      (∀ key, m.stations.slot? key = n.stations.slot? key) →
      ∀ c, conclusion = some c → (m.conclude answer c).Consistent) :
    (n.respond answer conclusion).Consistent := by
  have noted : Aligned (n.stations.withoutNote answer.source) n.schedule :=
    Aligned.modify consistent (fun _ => rfl) (fun _ => rfl)
  have response := responded answer conclusion n
  generalize n.respond answer conclusion = m at response ⊢
  cases response with
  | unknown => exact consistent
  | waiting => exact consistent
  | left => exact noted
  | concluded ends =>
      exact concludes _ (by exact noted) (fun _ => StationTable.slot?_withoutNote) _ ends

theorem consistent_reject {agreement : Agreement} (consistent : n.Consistent) :
    (n.reject peer flow agreement).Consistent := by
  refine consistent_respond consistent fun m mConsistent _ c ends => ?_
  have cleared : c = .cleared := by
    split at ends
    · cases ends
    · exact (Option.some.inj ends).symm
  subst cleared
  exact consistent_conclude_cleared mConsistent

theorem consistent_accept {slot : Slot} {command : SetupCommand} {agreement : Agreement}
    (consistent : n.Consistent) (found : n.stations.slot? ⟨peer, flow⟩ = some slot)
    (considering : slot.state.isConsidering = true) (free : slot.agreement = none) :
    (n.accept peer flow command agreement).Consistent := by
  rw [accept_eq]
  dsimp only
  split
  case h_1 error schedule refused =>
    have holdsNone : n.stations.agreement? ⟨peer, flow⟩ = none := by
      simp [StationTable.agreement?, found, free]
    exact consistent_reject (Aligned.refuse consistent refused holdsNone)
  case h_2 scheduled schedule granted =>
    obtain ⟨-, -, position, wakeTime, -, moved, -⟩ := Schedule.schedule_ok granted
    have sameInterval :
        ((scheduled.withCommand .accept).updateParameters).wakeInterval =
          agreement.wakeInterval := by
      rw [moved]
      rfl
    refine consistent_respond (Aligned.grant consistent granted found considering sameInterval)
      fun m mConsistent sameSlots c ends => ?_
    cases ends
    have holds : m.stations.agreement? ⟨peer, flow⟩ =
        some (scheduled.withCommand .accept).updateParameters := by
      rw [StationTable.agreement?, sameSlots, StationTable.slot?_setAgreement, if_pos rfl, found]
      rfl
    exact consistent_conclude_established mConsistent holds rfl

/-! ### Events -/

theorem consistent_consider {command : SetupCommand} {agreement : Agreement}
    (consistent : n.Consistent)
    (free : ∀ slot, n.stations.slot? ⟨peer, flow⟩ = some slot → slot.state = .noAgreement) :
    (n.consider peer flow command agreement).Consistent := by
  unfold consider
  split
  · exact consistent
  case h_2 slot found =>
    have settled := consistent.settled _ slot found (free slot found)
    have opened : ∀ state : AgreementState, state.isConsidering = true →
        (n.setState peer flow state).Consistent ∧
          (n.setState peer flow state).stations.slot? ⟨peer, flow⟩ =
            some { slot with state } := by
      intro state considering
      refine ⟨Aligned.setState consistent considering, ?_⟩
      rw [setState, StationTable.slot?_setState, if_pos rfl, found]
      rfl
    split
    · exact consistent_accept (opened _ rfl).1 (opened _ rfl).2 rfl settled
    · exact consistent_accept (opened _ rfl).1 (opened _ rfl).2 rfl settled
    · exact consistent_reject (opened _ rfl).1
    · exact consistent_reject (opened _ rfl).1
    all_goals exact consistent

theorem consistent_answerRequest {command : SetupCommand} {agreement : Agreement}
    {state : AgreementState} (consistent : n.Consistent)
    (stands : (n.stateOf peer flow).getD .noAgreement = state) :
    (n.answerRequest peer flow command agreement state).Consistent := by
  unfold answerRequest
  split
  · refine consistent_consider consistent fun slot found => ?_
    simpa [stateOf_of_slot? found] using stands
  case h_6 =>
    split
    · exact consistent
    · exact consistent_reject consistent
  all_goals exact consistent

theorem consistent_of_responderPart {m : Negotiation} (consistent : n.Consistent)
    (same : m.responderPart = n.responderPart) : m.Consistent := by
  have sameStations : m.stations = n.stations := congrArg ResponderPart.stations same
  have sameSchedule : m.schedule = n.schedule := congrArg ResponderPart.schedule same
  rw [Consistent, sameStations, sameSchedule]
  exact consistent

theorem consistent_handleTeardown (consistent : n.Consistent) :
    (n.handleTeardown event).Consistent := by
  unfold handleTeardown
  split
  · exact consistent_of_responderPart consistent (responderPart_handleOwnTeardown event n)
  · split
    · split
      · exact consistent
      · exact consistent
      · exact consistent_conclude_cleared consistent
    · exact consistent

theorem consistent_handleEvent (consistent : n.Consistent) :
    (n.handleEvent event).1.Consistent := by
  unfold handleEvent
  split
  · exact consistent_handleTeardown consistent
  · split
    · split
      · split
        · exact consistent
        case h_2 stations ensured =>
          exact consistent_answerRequest (n := { n with stations })
            (Aligned.ensure consistent ensured) rfl
      · exact consistent
    · split
      · exact consistent_of_responderPart consistent (responderPart_handleAnswer event _ n)
      · exact consistent

theorem consistent_handleAll {events : List Event} (consistent : n.Consistent) :
    (handleAll events n).1.Consistent :=
  holds_handleAll Consistent (fun _ _ _ => consistent_handleEvent) consistent

theorem consistent_handleEvents {source : Option MacAddress} (consistent : n.Consistent) :
    (n.handleEvents source).Consistent := by
  obtain ⟨events, tasks, handled⟩ := handleEvents_eq source n
  rw [handled]
  exact consistent_handleAll (n := n.opened source) consistent

/-! ### Operations -/

/-- An acceptance that is taken out may not move its flow to another interval. -/
theorem consistent_takeAnswer {operation : Operation} (consistent : n.Consistent)
    (takes : operation.takesAnswerFor? = some peer)
    (confirms : Confirms (·.wakeInterval) n operation) : (n.takeAnswer peer).2.Consistent := by
  have taken := answerTaken peer n
  generalize n.takeAnswer peer = result at taken ⊢
  cases taken with
  | nothing => exact consistent
  | @established answer agreement state first accepts stands considering =>
      obtain ⟨held, holds, sameInterval⟩ :=
        confirms peer answer agreement state takes first accepts stands considering
      obtain ⟨source, flow, body⟩ := answer
      cases accepts
      exact consistent_conclude_established (n := n.withoutAnswer peer) consistent holds
        sameInterval
  | cleared => exact consistent_conclude_cleared (n := n.withoutAnswer peer) consistent
  | kept => exact consistent
  | refused => exact consistent

theorem consistent_new (settings : Settings) : (new settings).Consistent :=
  Aligned.empty settings.maximumStations

/-- Every operation keeps slots and schedule in step, if an acceptance that it takes out confirms
the interval that its flow holds. -/
theorem consistent_apply {operation : Operation} (consistent : n.Consistent)
    (confirms : Confirms (·.wakeInterval) n operation) : (operation.apply n).Consistent := by
  have result := applied n operation
  generalize operation.apply n = m at result ⊢
  cases result with
  | untouched same => exact consistent_of_responderPart consistent same
  | queued _ same =>
      exact consistent_of_responderPart (n := n.queueEvent _) consistent same
  | noted _ ensured same =>
      refine consistent_of_responderPart ?_ same
      exact Aligned.modify (Aligned.ensure consistent ensured) (fun _ => rfl) (fun _ => rfl)
  | handled => exact consistent_handleEvents consistent
  | taken takes => exact consistent_takeAnswer consistent takes confirms
  | forgotten peer same =>
      exact consistent_of_responderPart (consistent_dropStation consistent) same
  | purged => exact consistent
  | cleared => exact Aligned.clear n.stations

end Negotiation

end TargetWakeTime
