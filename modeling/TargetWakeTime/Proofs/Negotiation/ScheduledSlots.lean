import TargetWakeTime.Proofs.Negotiation.Alignment
import TargetWakeTime.Proofs.Negotiation.WaitingAnswers

/-!
Contract: the agreements that the slots hold are those that the schedule lists.

Owns:
- what it means that slots and schedule tell the same, group by group;
- that they do along a run exactly if no acceptance that is taken out moves its flow to another
  interval, and that none does while no teardown leaves an answer behind.
-/

namespace TargetWakeTime.Negotiation

/-- Slots and schedule tell the same. -/
structure SlotsScheduled (n : Negotiation) : Prop where
  /-- What a slot holds is scheduled, and what is scheduled is held by a slot. -/
  scheduled : ∀ key, n.schedule.contains key = (n.stations.agreement? key).isSome
  /-- The group of the agreement's interval lists its key, and no other group does. -/
  grouped : ∀ key a, n.stations.agreement? key = some a →
    ∃ group ∈ n.schedule.groups, group.interval = a.wakeInterval ∧
      ∀ other ∈ n.schedule.groups, key ∈ other.entries ↔ other = group
  agreed : ∀ peer flow, n.stateOf peer flow = some .agreement →
    (n.stations.agreement? ⟨peer, flow⟩).isSome

variable {n : Negotiation}

theorem slotsScheduled_of_consistent (consistent : n.Consistent) : n.SlotsScheduled where
  scheduled key := by
    rw [Bool.eq_iff_iff, Schedule.contains_iff consistent.wellFormed, Option.isSome_iff_exists]
    simp only [consistent.listed]
    constructor
    · rintro ⟨interval, a, held, -⟩
      exact ⟨a, held⟩
    · rintro ⟨a, held⟩
      exact ⟨a.wakeInterval, a, held, rfl⟩
  grouped key a held := by
    have listed : key ∈ n.schedule.entries a.wakeInterval :=
      (consistent.listed key a.wakeInterval).mpr ⟨a, held, rfl⟩
    obtain ⟨group, member, sameInterval, sameEntries⟩ :=
      Schedule.exists_group_of_mem_entries consistent.wellFormed listed
    refine ⟨group, member, sameInterval, fun other otherMember => ?_⟩
    constructor
    -- A group is told by its interval, and its interval is that of each of its members.
    · intro inOther
      have otherEntries := Schedule.entries_of_mem consistent.wellFormed otherMember
      have otherInterval : other.interval = a.wakeInterval := by
        rw [← otherEntries] at inOther
        exact consistent.wellFormed.single key _ _ inOther listed
      obtain ⟨interval, entries⟩ := other
      obtain ⟨groupInterval, groupEntries⟩ := group
      simp only at otherInterval otherEntries sameInterval sameEntries
      rw [otherInterval, sameInterval, ← otherEntries, sameEntries, otherInterval]
    · rintro rfl
      rwa [sameEntries]
  agreed peer flow inAgreement := by
    obtain ⟨slot, found, state⟩ := exists_slot_of_stateOf inAgreement (by simp)
    have holds := consistent.agreed _ slot found state
    rw [StationTable.agreement?, found]
    exact holds

theorem conclude_established {answer : Event} {command : SetupCommand} {agreement : Agreement}
    {slot : Slot} (carries : answer.body = .setup command agreement)
    (found : n.stations.slot? answer.key = some slot) :
    (n.conclude answer .established).schedule = n.schedule ∧
      (n.conclude answer .established).stations.agreement? answer.key = some agreement := by
  obtain ⟨source, flow, body⟩ := answer
  cases carries
  simp only [Event.key] at found ⊢
  simp only [conclude, found, Event.agreement?, setState, StationTable.agreement?_setAgreement,
    StationTable.slot?_setState, if_true]
  exact ⟨trivial, rfl⟩

/-- An acceptance that is taken out and leaves slots and schedule in step confirms the interval. -/
theorem confirms_of_slotsScheduled {operation : Operation} (consistent : n.Consistent)
    (after : (operation.apply n).SlotsScheduled) : Confirms (·.wakeInterval) n operation := by
  intro peer answer agreement state takes first accepts stands considering
  have applied : operation.apply n = (n.withoutAnswer peer).conclude answer .established := by
    rw [← takeAnswer_snd_of_verdict first (by rw [verdict?, accepts]) stands considering]
    cases operation
    case takeAnswer =>
      cases takes
      rfl
    case takeResponseElement =>
      cases takes
      exact takeResponseElement_snd peer n
    all_goals cases takes
  obtain ⟨slot, found, -⟩ := exists_slot_of_stateOf stands (by rintro rfl; cases considering)
  have concluded := conclude_established (n := n.withoutAnswer peer) accepts found
  rw [applied] at after
  obtain ⟨group, member, sameInterval, alone⟩ := after.grouped _ _ concluded.2
  rw [concluded.1] at member alone
  have inGroup : answer.key ∈ group.entries := (alone group member).mpr rfl
  rw [← Schedule.entries_of_mem consistent.wellFormed member, sameInterval] at inGroup
  exact (consistent.listed _ _).mp inGroup

/-- Slots and schedule tell the same all along a run exactly if every acceptance that it takes out
confirms the interval that its flow holds; in particular they do if its teardowns take along what
waits for the flows they end. -/
theorem slotsScheduled_iff_confirms (settings : Settings) (operations : List Operation) :
    ((∀ n ∈ reached (new settings) operations, n.SlotsScheduled) ↔
      ∀ step ∈ steps (new settings) operations, Confirms (·.wakeInterval) step.1 step.2) ∧
    ((∀ step ∈ steps (new settings) operations, step.1.TeardownsTakeAnswers step.2) →
      ∀ n ∈ reached (new settings) operations, n.SlotsScheduled) := by
  have equivalence : (∀ n ∈ reached (new settings) operations, n.SlotsScheduled) ↔
      ∀ step ∈ steps (new settings) operations, Confirms (·.wakeInterval) step.1 step.2 := by
    apply Runs.reached_iff_steps Consistent
    · intro n consistent
      exact slotsScheduled_of_consistent consistent
    · intro n operation consistent confirms
      exact consistent_apply consistent confirms
    · intro n operation consistent after
      exact confirms_of_slotsScheduled consistent after
    · exact consistent_new settings
  exact ⟨equivalence, fun taken => equivalence.mpr (confirms_of_teardownsTakeAnswers taken)⟩

/-- A flow is torn down before its answer is taken, asks for another interval, and then takes the
old answer. -/
def movedByOldAnswer : List Operation :=
  let peer : MacAddress := ⟨2, 0, 0, 0, 0, 1⟩
  [.receiveElement peer (requestElement 0 1 1024), .receiveElement peer (requestElement 1 1 1024),
    .handleEvents none, .receiveTeardown peer 0, .handleEvents none,
    .receiveElement peer (requestElement 0 1 2048), .handleEvents none, .takeAnswer peer]

/-- The slot holds the old interval, and the schedule lists the flow with the new one. -/
theorem not_slotsScheduled_movedByOldAnswer :
    ¬ ∀ n ∈ reached (new .accessPoint) movedByOldAnswer, n.SlotsScheduled := by
  intro holds
  have after := holds _ (run_mem_reached _ _)
  have held : ((run (new .accessPoint) movedByOldAnswer).stations.agreement?
      ⟨⟨2, 0, 0, 0, 0, 1⟩, 0⟩).map (·.wakeInterval) = some 1024 := by
    decide +kernel
  have listed : ∀ group ∈ (run (new .accessPoint) movedByOldAnswer).schedule.groups,
      (⟨⟨2, 0, 0, 0, 0, 1⟩, 0⟩ : AgreementKey) ∈ group.entries → group.interval = 2048 := by
    decide +kernel
  obtain ⟨a, holdsAgreement, interval⟩ := Option.map_eq_some_iff.mp held
  obtain ⟨group, member, sameInterval, alone⟩ := after.grouped _ a holdsAgreement
  have new := listed group member ((alone group member).mpr rfl)
  rw [sameInterval, interval] at new
  exact absurd new (by decide)

end TargetWakeTime.Negotiation
