import TargetWakeTime.Proofs.Negotiation.Spacing
import TargetWakeTime.Proofs.Negotiation.WaitingAnswers

/-!
Contract: the service periods of different flows with one wake interval do not overlap.

Owns:
- what it means that periods do not overlap, and that none crowds another one out;
- that along a run that keeps to the timing it has given, the one holds exactly if the other does.

A period that fills its interval is followed by periods of no duration, and behind one of these first
fit sees room that the full period has taken up. Only then periods overlap.
-/

namespace TargetWakeTime.Negotiation

/-- Two flows hold agreements of one wake interval, with these service periods. -/
structure Share (n : Negotiation) (key other : AgreementKey) (p q : ServicePeriod) : Prop where
  apart : key ≠ other
  holds : n.stations.servicePeriod? key = some p
  otherHolds : n.stations.servicePeriod? other = some q
  sameInterval : p.wakeInterval = q.wakeInterval

/-- The service periods of flows that share a wake interval do not overlap. -/
def NoOverlap (n : Negotiation) : Prop :=
  ∀ key other p q, n.Share key other p q → ¬ p.Overlaps q

/-- A period that fills its interval shares it with periods of no duration only. -/
def Uncrowded (n : Negotiation) : Prop :=
  ∀ key other p q, n.Share key other p q → ¬ p.Crowds q

variable {n : Negotiation} {key other : AgreementKey} {p q : ServicePeriod}

theorem Share.symm (share : n.Share key other p q) : n.Share other key q p :=
  ⟨share.apart.symm, share.otherHolds, share.holds, share.sameInterval.symm⟩

/-- What holds a period is a member of the group of its interval. -/
theorem mem_entries_of_servicePeriod? (consistent : n.Consistent)
    (holds : n.stations.servicePeriod? key = some p) :
    key ∈ n.schedule.entries p.wakeInterval := by
  obtain ⟨a, held, rfl⟩ := Option.map_eq_some_iff.mp holds
  exact (consistent.listed _ _).mpr ⟨a, held, rfl⟩

/-- Flows that share a wake interval have their periods in one ring. -/
theorem overlaps_iff_of_share (consistent : n.Consistent) (rings : n.Rings)
    (share : n.Share key other p q) : p.Overlaps q ↔ p.Crowds q ∨ q.Crowds p := by
  let related (key other : AgreementKey) : Prop :=
    ∀ p, n.stations.servicePeriod? key = some p →
    ∀ q, n.stations.servicePeriod? other = some q →
      (p.Overlaps q ↔ p.Crowds q ∨ q.Crowds p)
  have symmetric : Std.Symm related := ⟨fun _ _ holds q qFound p pFound => by
    rw [ServicePeriod.overlaps_comm, Or.comm]
    exact holds p pFound q qFound⟩
  have members : (n.schedule.entries p.wakeInterval).Pairwise related :=
    List.pairwise_filterMap.mp (rings p.wakeInterval).overlaps_iff
  have member := mem_entries_of_servicePeriod? consistent share.holds
  have otherMember := mem_entries_of_servicePeriod? consistent share.otherHolds
  rw [← share.sameInterval] at otherMember
  exact members.forall member otherMember share.apart p share.holds q share.otherHolds

theorem noOverlap_iff_of_spaced (spaced : n.Spaced) : n.NoOverlap ↔ n.Uncrowded := by
  have overlaps {key other : AgreementKey} {p q : ServicePeriod} (share : n.Share key other p q) :=
    overlaps_iff_of_share spaced.consistent spaced.rings share
  constructor
  · intro noOverlap key other p q share crowds
    exact noOverlap key other p q share ((overlaps share).mpr (Or.inl crowds))
  · intro uncrowded key other p q share both
    rcases (overlaps share).mp both with crowds | crowds
    · exact uncrowded key other p q share crowds
    · exact uncrowded other key q p share.symm crowds

/-- In all states of a run whose events come from frames, in which no wake time overflows and every
acceptance that is taken out confirms the timing that its flow holds, periods overlap exactly if one
that fills its interval shares it with one that lasts. -/
theorem noOverlap_iff_uncrowded (settings : Settings) (operations : List Operation)
    (framed : ∀ operation ∈ operations, operation.fromFrames = true)
    (fit : ∀ step ∈ steps (new settings) operations, step.1.WakeTimesFit step.2)
    (confirms : ∀ step ∈ steps (new settings) operations,
      Confirms ServicePeriod.ofAgreement step.1 step.2) :
    ∀ n ∈ reached (new settings) operations, n.NoOverlap ↔ n.Uncrowded := by
  intro n member
  have keeps : ∀ step ∈ steps (new settings) operations, step.1.KeepsTiming step.2 := by
    intro step stepMember
    exact ⟨framed step.2 (Runs.mem_of_mem_steps stepMember).2, fit step stepMember,
      confirms step stepMember⟩
  have spaced := Runs.invariant_of_steps Spaced (fun n operation => spaced_apply) (spaced_new settings)
    keeps n member
  exact noOverlap_iff_of_spaced spaced

/-- Two stations ask for flows of one wake interval and take their answers. -/
def twoGranted : List Operation :=
  let first : MacAddress := ⟨2, 0, 0, 0, 0, 1⟩
  let second : MacAddress := ⟨2, 0, 0, 0, 0, 2⟩
  [.receiveElement first (requestElement 0 1 1024),
    .receiveElement second (requestElement 0 2 1024), .handleEvents none, .takeAnswer first,
    .takeAnswer second]

theorem noOverlap_iff_uncrowded_twoGranted :
    (run (new .accessPoint) twoGranted).NoOverlap ↔
      (run (new .accessPoint) twoGranted).Uncrowded := by
  have fit : ∀ step ∈ steps (new .accessPoint) twoGranted, step.1.WakeTimesFit step.2 := by
    intro step member handling handled _
    refine endFits_of_groups ?_
    revert handling
    revert step
    decide +kernel
  have confirms : ∀ step ∈ steps (new .accessPoint) twoGranted,
      Confirms ServicePeriod.ofAgreement step.1 step.2 := by
    refine confirms_of_teardownsTakeAnswers ?_
    simp only [twoGranted, steps, Runs.steps, List.forall_mem_cons, TeardownsTakeAnswers, true_and]
    exact ⟨by decide +kernel, fun _ none => by cases none⟩
  exact noOverlap_iff_uncrowded .accessPoint twoGranted (by decide +kernel) fit confirms _
    (run_mem_reached _ _)

/-- A period that fills its interval, one of no duration, and one that lasts. -/
def placedOverFull : List Operation :=
  let first : MacAddress := ⟨2, 0, 0, 0, 0, 1⟩
  let second : MacAddress := ⟨2, 0, 0, 0, 0, 2⟩
  let third : MacAddress := ⟨2, 0, 0, 0, 0, 3⟩
  [.receiveElement first (requestElement 0 1 256), .handleEvents none, .takeAnswer first,
    .receiveElement second (requestElement 0 0 256), .handleEvents none, .takeAnswer second,
    .receiveElement third (requestElement 0 1 256), .handleEvents none, .takeAnswer third]

/-- The third period takes up the same times as the first. -/
theorem not_noOverlap_placedOverFull :
    ¬ ∀ n ∈ reached (new .accessPoint) placedOverFull, n.NoOverlap := by
  intro holds
  have noOverlap := holds _ (run_mem_reached _ _)
  refine noOverlap ⟨⟨2, 0, 0, 0, 0, 1⟩, 0⟩ ⟨⟨2, 0, 0, 0, 0, 3⟩, 0⟩ ⟨0, 256, 256⟩ ⟨256, 256, 256⟩
    ⟨by decide, by decide +kernel, by decide +kernel, rfl⟩ ⟨0, ?_, ?_⟩
  · exact ⟨0, by decide, by decide⟩
  · exact ⟨0, by decide, by decide⟩

/-- An acceptance that outlives its flow may bring an old timing back, where another flow has a place
by now: both periods start with their interval. -/
example :
    let first : MacAddress := ⟨2, 0, 0, 0, 0, 1⟩
    let second : MacAddress := ⟨2, 0, 0, 0, 0, 2⟩
    let n := run (new .accessPoint)
      [.receiveElement first (requestElement 0 1 1024),
        .receiveElement first (requestElement 1 1 1024), .handleEvents none,
        .receiveTeardown first 0, .handleEvents none,
        .receiveElement first (requestElement 0 2 1024),
        .receiveElement second (requestElement 0 1 1024), .handleEvents none, .takeAnswer first]
    n.stations.servicePeriod? ⟨first, 0⟩ = some ⟨0, 1024, 256⟩ ∧
      n.stations.servicePeriod? ⟨second, 0⟩ = some ⟨1024, 1024, 256⟩ := by
  decide +kernel

end TargetWakeTime.Negotiation
