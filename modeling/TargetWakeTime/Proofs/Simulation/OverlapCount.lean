import TargetWakeTime.Proofs.Negotiation.Fitting
import TargetWakeTime.Proofs.Negotiation.IdleStations
import TargetWakeTime.Proofs.Negotiation.NoOverlap
import TargetWakeTime.Proofs.Schedule.Succession
import TargetWakeTime.Simulation.Overlap
import Mathlib.Data.List.Nodup

/-!
Contract: what it tells when no service period runs into the next one.

Owns:
- when two periods of one wake interval overlap, in terms of their first periods within it;
- the agreements of a responder as those of its keys;
- that none is counted exactly if the first periods of all flows lie apart, whatever their wake
  intervals;
- what sets this apart from periods that do not overlap: periods that run on into the next interval
  are not counted, and unrelated ones are, of different wake intervals or of no duration.

Comparing neighbours is enough: in the order of their starts, a period that lies before its successor
lies before all that follow.
-/

namespace TargetWakeTime

namespace ServicePeriod

variable {p q : ServicePeriod}

/-- The first periods within the interval lie apart, whichever comes first. -/
def Apart (p q : ServicePeriod) : Prop :=
  p.offset.toNat + p.duration.toNat ≤ q.offset.toNat ∨
    q.offset.toNat + q.duration.toNat ≤ p.offset.toNat

/-- A period is over before another one comes round again. -/
def OverBefore (p q : ServicePeriod) : Prop :=
  p.offset.toNat + p.duration.toNat ≤ q.offset.toNat + p.wakeInterval.toNat

instance : DecidableRel Apart := fun _ _ => inferInstanceAs (Decidable (_ ∨ _))

instance : DecidableRel OverBefore := fun _ _ => inferInstanceAs (Decidable (_ ≤ _))

theorem apart_comm : p.Apart q ↔ q.Apart p := Or.comm

/-- A period that overlaps another one lasts. -/
theorem Overlaps.lasts (overlaps : p.Overlaps q) : p.duration ≠ 0 := by
  obtain ⟨time, ⟨passed, within, -⟩, -⟩ := overlaps
  intro none
  rw [none] at within
  exact Nat.not_lt_zero _ within

private theorem offset_mod {interval : Nat} (shared : p.wakeInterval.toNat = interval) :
    p.offset.toNat % interval = p.offset.toNat := by
  rw [← mod_wakeTime shared, Nat.mod_mod]

private theorem offset_add_mod {interval : Nat} (shared : p.wakeInterval.toNat = interval) :
    (p.offset.toNat + interval) % interval = p.offset.toNat := by
  rw [Nat.add_mod_right, offset_mod shared]

/-- A period is over when one that lasts starts, also when this one comes round again. -/
private theorem over_of_not_overlaps {interval startQ : Nat}
    (sharedP : p.wakeInterval.toNat = interval) (sharedQ : q.wakeInterval.toNat = interval)
    (startsQ : startQ % interval = q.offset.toNat) (lasts : q.duration ≠ 0)
    (begun : p.offset.toNat ≤ startQ) (free : ¬ p.Overlaps q) :
    p.offset.toNat + p.duration.toNat ≤ startQ := by
  have lasting : 0 < q.duration.toNat :=
    Nat.pos_of_ne_zero fun none => lasts (UInt64.toNat_inj.mp none)
  exact Nat.le_of_not_lt fun running =>
    free (overlaps_of_running sharedP sharedQ (offset_mod sharedP) startsQ lasting begun running)

/-- Periods that last do not overlap exactly if their first ones lie apart and neither of them runs
on into the other one that comes round again. -/
theorem not_overlaps_iff (positive : 0 < p.wakeInterval.toNat)
    (sameInterval : p.wakeInterval = q.wakeInterval) (lasts : p.duration ≠ 0)
    (otherLasts : q.duration ≠ 0) :
    ¬ p.Overlaps q ↔ p.Apart q ∧ p.OverBefore q ∧ q.OverBefore p := by
  have shared : q.wakeInterval.toNat = p.wakeInterval.toNat :=
    congrArg UInt64.toNat sameInterval.symm
  have inside : p.offset.toNat < p.wakeInterval.toNat := offset_lt rfl positive
  have otherInside : q.offset.toNat < p.wakeInterval.toNat := offset_lt sameInterval.symm positive
  unfold Apart OverBefore
  rw [shared]
  constructor
  · intro free
    have otherFree : ¬ q.Overlaps p := fun overlaps => free (overlaps_comm.mp overlaps)
    refine ⟨?_, ?_, ?_⟩
    · rcases Nat.le_total p.offset.toNat q.offset.toNat with first | last
      · exact Or.inl (over_of_not_overlaps rfl shared (offset_mod shared) otherLasts first free)
      · exact Or.inr (over_of_not_overlaps shared rfl (offset_mod rfl) lasts last otherFree)
    · exact over_of_not_overlaps rfl shared (offset_add_mod shared) otherLasts (by omega) free
    · exact over_of_not_overlaps shared rfl (offset_add_mod rfl) lasts (by omega) otherFree
  · rintro ⟨before | behind, ends, otherEnds⟩
    · exact not_overlaps_of_apart rfl shared (offset_mod rfl) (offset_mod shared) before otherEnds
    · rw [overlaps_comm]
      exact not_overlaps_of_apart shared rfl (offset_mod shared) (offset_mod rfl) behind ends

end ServicePeriod

/-! ### Neighbours in a list of spans -/

namespace Simulation.Span

variable {a b : Span} {spans : List Span}

def Apart (a b : Span) : Prop := a.finish ≤ b.start ∨ b.finish ≤ a.start

theorem le_iff : le a b = true ↔ a.start < b.start ∨ a.start = b.start ∧ a.finish ≤ b.finish := by
  simp [le]

/-- In the order of starts, spans lie apart if the first one ends before the second one starts. -/
theorem apart_iff_of_le (ordered : le a b = true) (proper : b.start ≤ b.finish) :
    a.Apart b ↔ a.finish ≤ b.start := by
  rw [le_iff] at ordered
  unfold Apart
  omega

theorem overlaps_cons_cons_eq_zero_iff :
    overlaps (a :: b :: spans) = 0 ↔ a.finish ≤ b.start ∧ overlaps (b :: spans) = 0 := by
  rw [overlaps, Nat.add_eq_zero_iff, ite_eq_right_iff]
  omega

theorem ordered_mergeSort (spans : List Span) :
    (spans.mergeSort le).Pairwise fun a b => le a b = true := by
  refine List.pairwise_mergeSort ?_ ?_ spans
  · intro a b c first second
    rw [le_iff] at first second ⊢
    omega
  · intro a b
    rw [Bool.or_eq_true, le_iff, le_iff]
    omega

/-- In the order of starts, all spans lie apart if none starts before its predecessor ends. -/
theorem overlaps_eq_zero_iff (ordered : spans.Pairwise fun a b => le a b = true)
    (proper : ∀ span ∈ spans, span.start ≤ span.finish) :
    overlaps spans = 0 ↔ spans.Pairwise Apart := by
  induction spans with
  | nil => simp [overlaps]
  | cons first rest inductionHypothesis =>
      obtain ⟨firstOrdered, restOrdered⟩ := List.pairwise_cons.mp ordered
      have restProper := fun span member => proper span (List.mem_cons_of_mem first member)
      have restZero := inductionHypothesis restOrdered restProper
      have apart_iff {other : Span} (member : other ∈ rest) :
          first.Apart other ↔ first.finish ≤ other.start :=
        apart_iff_of_le (firstOrdered other member) (restProper other member)
      cases rest with
      | nil => simp [overlaps]
      | cons second rest =>
          rw [overlaps_cons_cons_eq_zero_iff, restZero, List.pairwise_cons (l := second :: rest)]
          refine and_congr_left fun _ => ⟨?_, fun apart => ?_⟩
          · intro ends other member
            have behind : second.start ≤ other.start := by
              rcases List.mem_cons.mp member with rfl | later
              · exact Nat.le_refl _
              · have := le_iff.mp ((List.pairwise_cons.mp restOrdered).1 other later)
                omega
            exact (apart_iff member).mpr (Nat.le_trans ends behind)
          · exact (apart_iff List.mem_cons_self).mp (apart second List.mem_cons_self)

/-- No span of a list that is put in order runs into the next one exactly if all lie apart. -/
theorem overlaps_mergeSort_eq_zero_iff (proper : ∀ span ∈ spans, span.start ≤ span.finish) :
    overlaps (spans.mergeSort le) = 0 ↔ spans.Pairwise Apart := by
  have permuted := List.mergeSort_perm spans le
  rw [overlaps_eq_zero_iff (ordered_mergeSort spans)
    fun span member => proper span (permuted.mem_iff.mp member)]
  exact permuted.pairwise_iff Or.symm

theorem apart_ofAgreement {held other : Agreement} (nonzero : held.wakeInterval ≠ 0)
    (otherNonzero : other.wakeInterval ≠ 0) :
    (ofAgreement held).Apart (ofAgreement other) ↔
      (ServicePeriod.ofAgreement held).Apart (.ofAgreement other) := by
  have start {a : Agreement} (recurs : a.wakeInterval ≠ 0) :
      a.wakeTime.toNat % max a.wakeInterval.toNat 1 =
        (ServicePeriod.ofAgreement a).offset.toNat := by
    have positive : 1 ≤ a.wakeInterval.toNat :=
      Nat.pos_of_ne_zero fun zero => recurs (UInt64.toNat_inj.mp zero)
    rw [Nat.max_eq_left positive]
    exact (UInt64.toNat_mod ..).symm
  simp only [Apart, ofAgreement, start nonzero, start otherNonzero]
  exact Iff.rfl

end Simulation.Span

/-! ### The agreements of a table -/

namespace StationTable

variable {t : StationTable} {key : AgreementKey}

/-- The flows of the stations, in order of arrival and then by number. -/
def keys (t : StationTable) : List AgreementKey :=
  t.stations.flatMap fun station =>
    (List.range 8).map fun flow => ⟨station.address, UInt8.ofNat flow⟩

/-- The agreements that the stations hold, in the order of their flows. -/
def agreements (t : StationTable) : List Agreement :=
  t.stations.flatMap fun station => station.slots.toList.filterMap (·.agreement)

private theorem filterMap_getElem?_range {α : Type} (list : List α) :
    (List.range list.length).filterMap (list[·]?) = list := by
  induction list with
  | nil => rfl
  | cons first rest inductionHypothesis =>
      rw [List.length_cons, List.range_succ_eq_map, List.filterMap_cons, List.filterMap_map]
      exact congrArg (first :: ·) inductionHypothesis

/-- The slots of a station are those of its flows. -/
private theorem toList_slots (slots : Slots) :
    slots.toList = (List.range 8).filterMap fun flow => slots.get? (UInt8.ofNat flow) := by
  refine (filterMap_getElem?_range slots.toList).symm.trans ?_
  rw [Vector.length_toList]
  refine List.filterMap_congr fun flow member => ?_
  have sameFlow : (UInt8.ofNat flow).toNat = flow := by
    have := List.mem_range.mp member
    rw [UInt8.toNat_ofNat']
    omega
  rw [Slots.get?, sameFlow, Vector.getElem?_toList]

theorem nodup_keys (distinct : t.Distinct) : t.keys.Nodup := by
  rw [keys, List.nodup_flatMap]
  constructor
  · intro station _
    refine List.Nodup.map_on ?_ List.nodup_range
    intro flow member other otherMember same
    have sameFlow := congrArg UInt8.toNat (AgreementKey.mk.inj same).2
    rw [List.mem_range] at member otherMember
    rw [UInt8.toNat_ofNat', UInt8.toNat_ofNat'] at sameFlow
    omega
  · refine (List.pairwise_map.mp distinct).imp fun {station other} apart => ?_
    intro key member otherMember
    obtain ⟨flow, -, rfl⟩ := List.mem_map.mp member
    obtain ⟨otherFlow, -, same⟩ := List.mem_map.mp otherMember
    exact apart (AgreementKey.mk.inj same).1.symm

theorem mem_keys_of_agreement? {a : Agreement} (held : t.agreement? key = some a) :
    key ∈ t.keys := by
  obtain ⟨slot, found, -⟩ := exists_slot_of_agreement? held
  obtain ⟨station, known, -⟩ := Option.bind_eq_some_iff.mp found
  refine List.mem_flatMap.mpr ⟨station, List.mem_of_find?_eq_some known, ?_⟩
  refine List.mem_map.mpr ⟨key.flow.toNat, List.mem_range.mpr (flow_lt_of_slot? found), ?_⟩
  rw [address_of_get? known, UInt8.ofNat_toNat]

theorem agreements_eq (distinct : t.Distinct) : t.agreements = t.keys.filterMap (t.agreement? ·) := by
  rw [agreements, keys, List.filterMap_flatMap]
  refine List.flatMap_congr fun station member => ?_
  rw [toList_slots, List.filterMap_filterMap, List.filterMap_map]
  refine List.filterMap_congr fun flow _ => ?_
  simp [agreement?, slot?, get?_of_mem distinct member]

/-- What holds for any two agreements in the order of a table holds for those of any two keys. -/
theorem pairwise_agreements {related : Agreement → Agreement → Prop} [symmetric : Std.Symm related]
    (distinct : t.Distinct) :
    t.agreements.Pairwise related ↔
      ∀ key other, key ≠ other → ∀ a, t.agreement? key = some a →
        ∀ b, t.agreement? other = some b → related a b := by
  have symmetricKeys : Std.Symm fun key other => ∀ a, t.agreement? key = some a →
      ∀ b, t.agreement? other = some b → related a b :=
    ⟨fun _ _ holds a held b otherHeld => symmetric.symm _ _ (holds b otherHeld a held)⟩
  rw [agreements_eq distinct, List.pairwise_filterMap]
  constructor
  · intro pairwise key other apart a held b otherHeld
    exact pairwise.forall (mem_keys_of_agreement? held) (mem_keys_of_agreement? otherHeld) apart a
      held b otherHeld
  · intro holds
    exact (nodup_keys distinct).pairwise_of_forall_ne fun key _ other _ apart =>
      holds key other apart

end StationTable

namespace Negotiation

open Simulation (overlappingPeriods)

variable {n : Negotiation} {key other : AgreementKey} {p q : ServicePeriod}

/-- The first periods of all flows lie apart, whatever their wake intervals. -/
def FirstPeriodsApart (n : Negotiation) : Prop :=
  ∀ key other p q, key ≠ other → n.stations.servicePeriod? key = some p →
    n.stations.servicePeriod? other = some q → p.Apart q

/-- No period runs on into one of its own wake interval that comes round again and lasts. -/
def NoneRunsOn (n : Negotiation) : Prop :=
  ∀ key other p q, n.Share key other p q → p.duration ≠ 0 → q.duration ≠ 0 → p.OverBefore q

/-- The first periods of flows lie apart also where they cannot overlap, because their wake intervals
are different or one of them does not last. -/
def UnrelatedApart (n : Negotiation) : Prop :=
  ∀ key other p q, key ≠ other → n.stations.servicePeriod? key = some p →
    n.stations.servicePeriod? other = some q →
    p.wakeInterval ≠ q.wakeInterval ∨ p.duration = 0 ∨ q.duration = 0 → p.Apart q

/-- All flows share one wake interval, and their periods last. -/
structure Uniform (n : Negotiation) : Prop where
  shared : ∀ key other p q, key ≠ other → n.stations.servicePeriod? key = some p →
    n.stations.servicePeriod? other = some q → p.wakeInterval = q.wakeInterval
  lasting : ∀ key p, n.stations.servicePeriod? key = some p → p.duration ≠ 0

/-- Then no two of them are unrelated. -/
theorem Uniform.unrelatedApart (uniform : n.Uniform) : n.UnrelatedApart := by
  intro key other p q apart holds otherHolds unrelated
  rcases unrelated with different | none | none
  · exact absurd (uniform.shared key other p q apart holds otherHolds) different
  · exact absurd none (uniform.lasting key p holds)
  · exact absurd none (uniform.lasting other q otherHolds)

/-- What holds for any two agreements in the order of the table holds for the periods of any two
flows. -/
theorem pairwise_servicePeriods (related : ServicePeriod → ServicePeriod → Prop)
    (symmetric : ∀ p q, related p q → related q p) (distinct : n.stations.Distinct) :
    (n.stations.agreements.Pairwise fun a b => related (.ofAgreement a) (.ofAgreement b)) ↔
      ∀ key other p q, key ≠ other → n.stations.servicePeriod? key = some p →
        n.stations.servicePeriod? other = some q → related p q := by
  have symmetricAgreements : Std.Symm fun a b : Agreement =>
      related (.ofAgreement a) (.ofAgreement b) := ⟨fun _ _ => symmetric _ _⟩
  rw [StationTable.pairwise_agreements distinct]
  constructor
  · intro holds key other p q apart held otherHeld
    obtain ⟨a, found, rfl⟩ := Option.map_eq_some_iff.mp held
    obtain ⟨b, otherFound, rfl⟩ := Option.map_eq_some_iff.mp otherHeld
    exact holds key other apart a found b otherFound
  · intro holds key other apart a found b otherFound
    refine holds key other _ _ apart ?_ ?_
    · rw [StationTable.servicePeriod?, found, Option.map_some]
    · rw [StationTable.servicePeriod?, otherFound, Option.map_some]

theorem overlappingPeriods_eq_zero_iff_agreements (fitting : n.Fitting) :
    overlappingPeriods n = 0 ↔ n.stations.agreements.Pairwise fun a b =>
      (ServicePeriod.ofAgreement a).Apart (.ofAgreement b) := by
  have nonzero {a : Agreement} (member : a ∈ n.stations.agreements) : a.wakeInterval ≠ 0 := by
    rw [StationTable.agreements_eq fitting.distinct] at member
    obtain ⟨key, -, held⟩ := List.mem_filterMap.mp member
    exact (not_or.mp (fitting.held key a held)).1
  have counted : overlappingPeriods n = 0 ↔
      (n.stations.agreements.map Simulation.Span.ofAgreement).Pairwise Simulation.Span.Apart := by
    refine Simulation.Span.overlaps_mergeSort_eq_zero_iff fun span member => ?_
    obtain ⟨a, -, rfl⟩ := List.mem_map.mp member
    exact Nat.le_add_right _ _
  rw [counted, List.pairwise_map]
  exact List.Pairwise.iff_of_mem fun member otherMember =>
    Simulation.Span.apart_ofAgreement (nonzero member) (nonzero otherMember)

theorem overlappingPeriods_eq_zero_iff_apart (fitting : n.Fitting) :
    overlappingPeriods n = 0 ↔ n.FirstPeriodsApart :=
  (overlappingPeriods_eq_zero_iff_agreements fitting).trans
    (pairwise_servicePeriods _ (fun _ _ => ServicePeriod.apart_comm.mp) fitting.distinct)

/-- What it takes that periods which last do not overlap. -/
theorem Share.not_overlaps_iff (share : n.Share key other p q) (fitting : n.Fitting)
    (lasts : p.duration ≠ 0) (otherLasts : q.duration ≠ 0) :
    ¬ p.Overlaps q ↔ p.Apart q ∧ p.OverBefore q ∧ q.OverBefore p :=
  ServicePeriod.not_overlaps_iff (fitting.servicePeriod share.holds).1 share.sameInterval lasts
    otherLasts

/-- Where first periods lie apart, only what comes round again can overlap. -/
theorem FirstPeriodsApart.noOverlap_iff (apart : n.FirstPeriodsApart) (fitting : n.Fitting) :
    n.NoOverlap ↔ n.NoneRunsOn := by
  constructor
  · intro noOverlap key other p q share lasts otherLasts
    exact ((share.not_overlaps_iff fitting lasts otherLasts).mp
      (noOverlap key other p q share)).2.1
  · intro noneRunsOn key other p q share overlaps
    have lasts := overlaps.lasts
    have otherLasts := (ServicePeriod.overlaps_comm.mp overlaps).lasts
    have ends := noneRunsOn key other p q share lasts otherLasts
    have otherEnds := noneRunsOn other key q p share.symm otherLasts lasts
    exact (share.not_overlaps_iff fitting lasts otherLasts).mpr
      ⟨apart key other p q share.apart share.holds share.otherHolds, ends, otherEnds⟩ overlaps

theorem NoOverlap.firstPeriodsApart (noOverlap : n.NoOverlap) (unrelated : n.UnrelatedApart)
    (fitting : n.Fitting) : n.FirstPeriodsApart := by
  intro key other p q apart holds otherHolds
  by_cases related : p.wakeInterval = q.wakeInterval ∧ p.duration ≠ 0 ∧ q.duration ≠ 0
  case pos =>
    obtain ⟨sameInterval, lasts, otherLasts⟩ := related
    have share : n.Share key other p q := ⟨apart, holds, otherHolds, sameInterval⟩
    exact ((share.not_overlaps_iff fitting lasts otherLasts).mp (noOverlap key other p q share)).1
  case neg => exact unrelated key other p q apart holds otherHolds (by tauto)

/-! ### Checking the table -/

theorem uniform_of_agreements (distinct : n.stations.Distinct)
    (shared : n.stations.agreements.Pairwise fun a b =>
      (ServicePeriod.ofAgreement a).wakeInterval = (ServicePeriod.ofAgreement b).wakeInterval)
    (lasting : ∀ a ∈ n.stations.agreements, (ServicePeriod.ofAgreement a).duration ≠ 0) :
    n.Uniform where
  shared :=
    (pairwise_servicePeriods (·.wakeInterval = ·.wakeInterval) (fun _ _ => Eq.symm) distinct).mp
      shared
  lasting key p holds := by
    obtain ⟨a, held, rfl⟩ := Option.map_eq_some_iff.mp holds
    refine lasting a ?_
    rw [StationTable.agreements_eq distinct]
    exact List.mem_filterMap.mpr ⟨key, StationTable.mem_keys_of_agreement? held, held⟩

theorem noneRunsOn_of_agreements (distinct : n.stations.Distinct)
    (ends : n.stations.agreements.Pairwise fun a b =>
      (ServicePeriod.ofAgreement a).OverBefore (.ofAgreement b) ∧
        (ServicePeriod.ofAgreement b).OverBefore (.ofAgreement a)) : n.NoneRunsOn := by
  intro key other p q share _ _
  have both := (pairwise_servicePeriods (fun p q => p.OverBefore q ∧ q.OverBefore p)
    (fun _ _ => And.symm) distinct).mp ends
  exact (both key other p q share.apart share.holds share.otherHolds).1

/-- In every state of every run, no period is counted to run into the next one exactly if the first
periods of all flows lie apart, whatever their wake intervals. None is counted and none runs on into
the next interval exactly if periods do not overlap and unrelated ones lie apart; so where all flows
share one wake interval, their periods last and none runs on, none is counted exactly if periods do
not overlap. -/
theorem overlappingPeriods_eq_zero_iff (settings : Settings) (operations : List Operation) :
    ∀ n ∈ reached (new settings) operations,
      (overlappingPeriods n = 0 ↔ n.FirstPeriodsApart) ∧
      (overlappingPeriods n = 0 ∧ n.NoneRunsOn ↔ n.NoOverlap ∧ n.UnrelatedApart) ∧
      (n.Uniform → n.NoneRunsOn → (overlappingPeriods n = 0 ↔ n.NoOverlap)) := by
  intro n member
  have fitting := fitting_reached settings operations n member
  have zero := overlappingPeriods_eq_zero_iff_apart fitting
  have exactly : overlappingPeriods n = 0 ∧ n.NoneRunsOn ↔ n.NoOverlap ∧ n.UnrelatedApart := by
    rw [zero]
    constructor
    · rintro ⟨apart, noneRunsOn⟩
      exact ⟨(apart.noOverlap_iff fitting).mpr noneRunsOn,
        fun key other p q differ holds otherHolds _ => apart key other p q differ holds otherHolds⟩
    · rintro ⟨noOverlap, unrelated⟩
      have apart := noOverlap.firstPeriodsApart unrelated fitting
      exact ⟨apart, (apart.noOverlap_iff fitting).mp noOverlap⟩
  refine ⟨zero, exactly, fun uniform noneRunsOn => ?_⟩
  constructor
  · intro none
    exact (exactly.mp ⟨none, noneRunsOn⟩).1
  · intro noOverlap
    exact (exactly.mpr ⟨noOverlap, uniform.unrelatedApart⟩).1

/-! ### Runs -/

/-- A station asks for its first flow and takes its answer. -/
def grants (source : MacAddress) (duration : UInt8) (interval : UInt16) : List Operation :=
  [.receiveElement source (requestElement 0 duration interval), .handleEvents none,
    .takeAnswer source]

/-- A station gives its first flow up. -/
def givesUp (source : MacAddress) : List Operation :=
  [.receiveTeardown source 0, .handleEvents none]

/-- The third station gets the time up to where the second one's period comes round again. -/
def aroundTheEnd : List Operation :=
  let first : MacAddress := ⟨2, 0, 0, 0, 0, 1⟩
  let second : MacAddress := ⟨2, 0, 0, 0, 0, 2⟩
  let third : MacAddress := ⟨2, 0, 0, 0, 0, 3⟩
  grants first 1 1024 ++ grants second 1 1024 ++ givesUp first ++ grants third 3 1024

theorem overlappingPeriods_eq_zero_iff_aroundTheEnd :
    let n := run (new .accessPoint) aroundTheEnd
    overlappingPeriods n = 0 ∧ n.Uniform ∧ n.NoneRunsOn ∧ n.FirstPeriodsApart ∧ n.NoOverlap := by
  intro n
  have fitting := fitting_reached .accessPoint aroundTheEnd n (run_mem_reached _ _)
  have none : overlappingPeriods n = 0 :=
    (overlappingPeriods_eq_zero_iff_agreements fitting).mpr (by decide +kernel)
  have uniform : n.Uniform := uniform_of_agreements fitting.distinct (by decide +kernel)
    (by decide +kernel)
  have noneRunsOn : n.NoneRunsOn := noneRunsOn_of_agreements fitting.distinct (by decide +kernel)
  obtain ⟨zero, -, exactly⟩ :=
    overlappingPeriods_eq_zero_iff .accessPoint aroundTheEnd n (run_mem_reached _ _)
  exact ⟨none, uniform, noneRunsOn, zero.mp none, (exactly uniform noneRunsOn).mp none⟩

/-- Two stations have periods of different wake intervals, both from the start of their interval. -/
def twoIntervals : List Operation :=
  grants ⟨2, 0, 0, 0, 0, 1⟩ 1 1024 ++ grants ⟨2, 0, 0, 0, 0, 2⟩ 1 2048

/-- There is nothing to overlap, and yet a period is counted. -/
theorem not_overlappingPeriods_eq_zero_iff_twoIntervals :
    ¬ ∀ n ∈ reached (new .accessPoint) twoIntervals,
      (overlappingPeriods n = 0 ↔ n.NoOverlap) := by
  intro holds
  have fitting := fitting_reached .accessPoint twoIntervals _ (run_mem_reached _ _)
  have counted : overlappingPeriods (run (new .accessPoint) twoIntervals) ≠ 0 := by
    rw [Ne, overlappingPeriods_eq_zero_iff_agreements fitting]
    decide +kernel
  have different := (pairwise_servicePeriods (·.wakeInterval ≠ ·.wakeInterval)
    (fun _ _ => Ne.symm) fitting.distinct).mp (by decide +kernel)
  refine counted ((holds _ (run_mem_reached _ _)).mpr fun key other p q share _ => ?_)
  exact different key other p q share.apart share.holds share.otherHolds share.sameInterval

/-- The third station's period fills its interval from the second one's on; the sixth one's is placed
behind periods that are no room to it, and starts with the interval. -/
def runningOn : List Operation :=
  let station (number : UInt8) : MacAddress := ⟨2, 0, 0, 0, 0, number⟩
  grants (station 1) 1 1024 ++ grants (station 2) 0 1024 ++ givesUp (station 1) ++
    grants (station 3) 4 1024 ++ givesUp (station 2) ++ grants (station 4) 0 1024 ++
    grants (station 5) 3 1024 ++ grants (station 6) 1 1024 ++ givesUp (station 5)

/-- What runs on into the next interval is not counted. -/
theorem not_noOverlap_runningOn :
    let n := run (new .accessPoint) runningOn
    overlappingPeriods n = 0 ∧ ¬ n.NoOverlap := by
  intro n
  have fitting := fitting_reached .accessPoint runningOn n (run_mem_reached _ _)
  constructor
  · exact (overlappingPeriods_eq_zero_iff_agreements fitting).mpr (by decide +kernel)
  · intro noOverlap
    have third : n.stations.servicePeriod? ⟨⟨2, 0, 0, 0, 0, 3⟩, 0⟩ = some ⟨256, 1024, 1024⟩ := by
      decide +kernel
    have sixth : n.stations.servicePeriod? ⟨⟨2, 0, 0, 0, 0, 6⟩, 0⟩ = some ⟨2048, 1024, 256⟩ := by
      decide +kernel
    refine noOverlap _ _ _ _ ⟨by decide, third, sixth, rfl⟩ ⟨0, ?_, ?_⟩
    · exact ⟨768, by decide, by decide⟩
    · exact ⟨0, by decide, by decide⟩

end Negotiation

end TargetWakeTime
