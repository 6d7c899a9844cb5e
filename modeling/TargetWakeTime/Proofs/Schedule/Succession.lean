import TargetWakeTime.Proofs.Schedule.Ring

/-!
Contract: periods of one interval that follow one another in their wake times as they are.

Owns:
- successions: each period ends before the next one starts, and the last one before the first comes
  round again;
- the gaps of a succession, and the first of them that holds a duration;
- successions stay successions when periods are taken out and when one is put into a gap, and no
  two of their periods overlap;
- a period can start somewhere without an overlap exactly if some gap holds it.

Wake times are not reduced, and the first one may lie many intervals ahead. What periods take up is
reduced: a free time is therefore looked for in the turn that begins with the first wake time.
-/

namespace TargetWakeTime

namespace ServicePeriod

variable {p q : ServicePeriod} {interval startP startQ : Nat}

/-- When the first period ends, not reduced to a word. -/
def ends (p : ServicePeriod) : Nat := p.wakeTime.toNat + p.duration.toNat

theorem mod_wakeTime (shared : p.wakeInterval.toNat = interval) :
    p.wakeTime.toNat % interval = p.offset.toNat := by
  rw [offset, UInt64.toNat_mod, shared]

/-- Overlaps as they are seen from any times at which two periods start. -/
theorem overlaps_iff_of_starts (sharedP : p.wakeInterval.toNat = interval)
    (sharedQ : q.wakeInterval.toNat = interval) (startsP : startP % interval = p.offset.toNat)
    (startsQ : startQ % interval = q.offset.toNat) :
    p.Overlaps q ↔ ∃ i < p.duration.toNat, ∃ j < q.duration.toNat,
      (startP + i) % interval = (startQ + j) % interval := by
  simp only [Overlaps, Covers, sharedP, sharedQ, ← startsP, ← startsQ, Nat.mod_add_mod]
  constructor
  · rintro ⟨time, ⟨i, iInside, rfl⟩, j, jInside, same⟩
    exact ⟨i, iInside, j, jInside, same⟩
  · rintro ⟨i, iInside, j, jInside, same⟩
    exact ⟨_, ⟨i, iInside, rfl⟩, j, jInside, same⟩

/-- A lasting period that starts while another one runs overlaps it. -/
theorem overlaps_of_running (sharedP : p.wakeInterval.toNat = interval)
    (sharedQ : q.wakeInterval.toNat = interval) (startsP : startP % interval = p.offset.toNat)
    (startsQ : startQ % interval = q.offset.toNat) (lasts : 0 < q.duration.toNat)
    (begun : startP ≤ startQ) (running : startQ < startP + p.duration.toNat) : p.Overlaps q := by
  rw [overlaps_iff_of_starts sharedP sharedQ startsP startsQ]
  refine ⟨startQ - startP, by omega, 0, lasts, ?_⟩
  rw [Nat.add_sub_cancel' begun, Nat.add_zero]

private theorem mod_ne_of_between {earlier later : Nat} (ordered : earlier < later)
    (within : later < earlier + interval) : earlier % interval ≠ later % interval := by
  intro same
  have multiple : (later - earlier) % interval = 0 := Nat.sub_mod_eq_zero_of_mod_eq same.symm
  rw [Nat.mod_eq_of_lt (by omega)] at multiple
  omega

/-- A period does not overlap another one that starts where it ends or later, and ends before it
comes round again. -/
theorem not_overlaps_of_apart (sharedP : p.wakeInterval.toNat = interval)
    (sharedQ : q.wakeInterval.toNat = interval) (startsP : startP % interval = p.offset.toNat)
    (startsQ : startQ % interval = q.offset.toNat) (behind : startP + p.duration.toNat ≤ startQ)
    (within : startQ + q.duration.toNat ≤ startP + interval) : ¬ p.Overlaps q := by
  rw [overlaps_iff_of_starts sharedP sharedQ startsP startsQ]
  rintro ⟨i, iInside, j, jInside, same⟩
  exact mod_ne_of_between (by omega) (by omega) same

end ServicePeriod

namespace Schedule

/-- When the gap behind a period ends: when the next one starts, or at a limit behind the last. -/
def gapEnd (limit : Nat) : List ServicePeriod → Nat
  | [] => limit
  | next :: _ => next.wakeTime.toNat

/-- Periods each of which ends before the next one starts, the last one before a limit. -/
def Follow (limit : Nat) : List ServicePeriod → Prop
  | [] => True
  | p :: rest => p.ends ≤ gapEnd limit rest ∧ Follow limit rest

/-- When the first of some periods comes round again. -/
def comesRound (interval : UInt64) : List ServicePeriod → Nat
  | [] => interval.toNat
  | first :: _ => first.wakeTime.toNat + interval.toNat

/-- Lasting periods of one interval that follow one another within one turn. -/
structure Succession (interval : UInt64) (periods : List ServicePeriod) : Prop where
  shared : ∀ p ∈ periods, p.wakeInterval = interval
  lasting : ∀ p ∈ periods, p.duration ≠ 0
  follow : Follow (comesRound interval periods) periods

/-- Whether the gap behind a period holds a duration. -/
def GapHolds (limit duration : Nat) (before : ServicePeriod) (later : List ServicePeriod) : Prop :=
  before.ends + duration ≤ gapEnd limit later

/-- The first gap that holds a duration, as the place of a period that starts with it. -/
inductive FirstGap (limit duration : Nat) : List ServicePeriod → Place → Prop where
  | here {before : ServicePeriod} {later : List ServicePeriod} {wakeTime : UInt64}
      (holds : GapHolds limit duration before later) (wakes : wakeTime.toNat = before.ends) :
      FirstGap limit duration (before :: later) ⟨1, wakeTime⟩
  | behind {before : ServicePeriod} {later : List ServicePeriod} {place : Place}
      (small : ¬ GapHolds limit duration before later) (found : FirstGap limit duration later place) :
      FirstGap limit duration (before :: later) { place with position := place.position + 1 }

variable {limit duration : Nat} {interval : UInt64} {p q before : ServicePeriod}
  {periods earlier later rest : List ServicePeriod}

/-! ### Following one another -/

theorem Follow.mono {further : Nat} (follow : Follow limit periods) (less : limit ≤ further) :
    Follow further periods := by
  induction periods with
  | nil => trivial
  | cons p rest inductionHypothesis =>
      refine ⟨Nat.le_trans follow.1 ?_, inductionHypothesis follow.2⟩
      cases rest with
      | nil => exact less
      | cons next later => exact Nat.le_refl _

theorem Follow.gapEnd_le (follow : Follow limit periods) : gapEnd limit periods ≤ limit := by
  induction periods with
  | nil => exact Nat.le_refl _
  | cons p rest inductionHypothesis =>
      have ends : p.wakeTime.toNat + p.duration.toNat ≤ gapEnd limit rest := follow.1
      have later := inductionHypothesis follow.2
      change p.wakeTime.toNat ≤ limit
      omega

theorem Follow.bounds (follow : Follow limit periods) :
    ∀ p ∈ periods, gapEnd limit periods ≤ p.wakeTime.toNat ∧ p.ends ≤ limit := by
  induction periods with
  | nil => simp
  | cons first rest inductionHypothesis =>
      intro p member
      have ends : first.wakeTime.toNat + first.duration.toNat ≤ gapEnd limit rest := follow.1
      rcases List.mem_cons.mp member with rfl | later
      · exact ⟨Nat.le_refl _, Nat.le_trans follow.1 follow.2.gapEnd_le⟩
      · have bounds := inductionHypothesis follow.2 p later
        refine ⟨?_, bounds.2⟩
        change first.wakeTime.toNat ≤ p.wakeTime.toNat
        omega

theorem Follow.pairwise (follow : Follow limit periods) :
    periods.Pairwise fun p q => p.ends ≤ q.wakeTime.toNat := by
  induction periods with
  | nil => exact List.Pairwise.nil
  | cons first rest inductionHypothesis =>
      refine List.pairwise_cons.mpr ⟨fun q member => ?_, inductionHypothesis follow.2⟩
      exact Nat.le_trans follow.1 (follow.2.bounds q member).1

theorem Follow.sublist {fewer : List ServicePeriod} (follow : Follow limit periods)
    (sublist : fewer.Sublist periods) : Follow limit fewer := by
  induction sublist with
  | slnil => exact follow
  | cons p _ inductionHypothesis => exact inductionHypothesis follow.2
  | @cons_cons fewer rest p sublist inductionHypothesis =>
      refine ⟨Nat.le_trans follow.1 ?_, inductionHypothesis follow.2⟩
      cases fewer with
      | nil => exact follow.2.gapEnd_le
      | cons next _ => exact (follow.2.bounds next (sublist.subset List.mem_cons_self)).1

theorem Follow.insert (follow : Follow limit (earlier ++ before :: later))
    (starts : q.wakeTime.toNat = before.ends) (fits : q.ends ≤ gapEnd limit later) :
    Follow limit (earlier ++ before :: q :: later) := by
  induction earlier with
  | nil => exact ⟨Nat.le_of_eq starts.symm, fits, follow.2⟩
  | cons p rest inductionHypothesis =>
      refine ⟨?_, inductionHypothesis follow.2⟩
      -- The next period is the same as before, whether it is the one in front of the gap or not.
      cases rest <;> exact follow.1

/-! ### Successions -/

theorem Succession.nil : Succession interval [] where
  shared := by simp
  lasting := by simp
  follow := trivial

theorem Succession.tail (succession : Succession interval (p :: rest)) :
    Succession interval rest where
  shared q member := succession.shared q (List.mem_cons_of_mem _ member)
  lasting q member := succession.lasting q (List.mem_cons_of_mem _ member)
  follow := by
    cases rest with
    | nil => trivial
    | cons next later =>
        have ends : p.wakeTime.toNat + p.duration.toNat ≤ next.wakeTime.toNat :=
          succession.follow.1
        refine succession.follow.2.mono ?_
        simp only [comesRound]
        omega

/-- A succession stays one when any of its periods are taken out, the first included. -/
theorem Succession.sublist {fewer : List ServicePeriod} (succession : Succession interval periods)
    (sublist : fewer.Sublist periods) : Succession interval fewer := by
  induction sublist with
  | slnil => exact succession
  | cons p _ inductionHypothesis => exact inductionHypothesis succession.tail
  | cons_cons p sublist _ =>
      have whole := sublist.cons_cons p
      exact
        { shared := fun q member => succession.shared q (whole.subset member)
          lasting := fun q member => succession.lasting q (whole.subset member)
          follow := succession.follow.sublist whole }

theorem Succession.singleton (shared : p.wakeInterval = interval) (lasting : p.duration ≠ 0)
    (fits : p.duration.toNat ≤ interval.toNat) : Succession interval [p] where
  shared := by simpa using shared
  lasting := by simpa using lasting
  follow := ⟨Nat.add_le_add_left fits _, trivial⟩

theorem Succession.insert (succession : Succession interval (earlier ++ before :: later))
    (shared : q.wakeInterval = interval) (lasting : q.duration ≠ 0)
    (starts : q.wakeTime.toNat = before.ends)
    (holds : GapHolds (comesRound interval (earlier ++ before :: later)) q.duration.toNat before
      later) : Succession interval (earlier ++ before :: q :: later) := by
  have member : ∀ p ∈ earlier ++ before :: q :: later,
      p = q ∨ p ∈ earlier ++ before :: later := by
    intro p member
    simp only [List.mem_append, List.mem_cons] at member ⊢
    tauto
  have sameTurn : comesRound interval (earlier ++ before :: q :: later) =
      comesRound interval (earlier ++ before :: later) := by
    cases earlier <;> rfl
  have fits : q.ends ≤ gapEnd (comesRound interval (earlier ++ before :: later)) later := by
    rw [ServicePeriod.ends, starts]
    exact holds
  exact
    { shared := fun p inside => (member p inside).elim (fun same => same ▸ shared)
        (succession.shared p)
      lasting := fun p inside => (member p inside).elim (fun same => same ▸ lasting)
        (succession.lasting p)
      follow := sameTurn ▸ succession.follow.insert starts fits }

/-- All periods of a succession lie in the turn that begins with the first. -/
theorem Succession.within (succession : Succession interval periods) :
    ∀ p ∈ periods, p.ends ≤ comesRound interval periods ∧
      comesRound interval periods ≤ p.wakeTime.toNat + interval.toNat := by
  intro p member
  have bounds := succession.follow.bounds p member
  refine ⟨bounds.2, ?_⟩
  cases periods with
  | nil => cases member
  | cons first rest => exact Nat.add_le_add_right bounds.1 _

/-- No two periods of a succession overlap. -/
theorem Succession.pairwise_not_overlaps (succession : Succession interval periods) :
    periods.Pairwise fun p q => ¬ p.Overlaps q := by
  refine succession.follow.pairwise.imp_of_mem fun {p q} memberP memberQ behind => ?_
  have sharedP := congrArg UInt64.toNat (succession.shared p memberP)
  have sharedQ := congrArg UInt64.toNat (succession.shared q memberQ)
  have endsQ : q.wakeTime.toNat + q.duration.toNat ≤ comesRound interval periods :=
    (succession.within q memberQ).1
  have round := (succession.within p memberP).2
  exact ServicePeriod.not_overlaps_of_apart sharedP sharedQ (ServicePeriod.mod_wakeTime sharedP)
    (ServicePeriod.mod_wakeTime sharedQ) behind (Nat.le_trans endsQ round)

/-! ### Gaps -/

theorem FirstGap.split {place : Place} (gap : FirstGap limit duration periods place) :
    ∃ earlier before later, periods = earlier ++ before :: later ∧
      place.position = earlier.length + 1 ∧ place.wakeTime.toNat = before.ends ∧
      GapHolds limit duration before later := by
  induction gap with
  | @here before later wakeTime holds wakes => exact ⟨[], before, later, rfl, rfl, wakes, holds⟩
  | @behind current rest place small _ inductionHypothesis =>
      obtain ⟨earlier, before, later, rfl, position, wakes, holds⟩ := inductionHypothesis
      exact ⟨current :: earlier, before, later, rfl, by rw [position]; rfl, wakes, holds⟩

/-- The period in front of a time, and the gap or the period that the time lies in. -/
private theorem exists_last_before {time : Nat} (rest : List ServicePeriod)
    (startsBefore : p.wakeTime.toNat ≤ time) (inside : time < limit) :
    ∃ earlier before later, p :: rest = earlier ++ before :: later ∧
      before.wakeTime.toNat ≤ time ∧ time < gapEnd limit later := by
  induction rest generalizing p with
  | nil => exact ⟨[], p, [], rfl, startsBefore, inside⟩
  | cons next rest inductionHypothesis =>
      by_cases first : time < next.wakeTime.toNat
      case pos => exact ⟨[], p, next :: rest, rfl, startsBefore, first⟩
      case neg =>
        obtain ⟨earlier, before, later, parts, starts, within⟩ :=
          inductionHypothesis (Nat.not_lt.mp first)
        exact ⟨p :: earlier, before, later, by rw [parts]; rfl, starts, within⟩

/-- Every time of an interval's course comes in the turn that begins with a given time. -/
private theorem exists_in_turn {interval time : Nat} (base : Nat) (inside : time < interval) :
    ∃ shifted, base ≤ shifted ∧ shifted < base + interval ∧ shifted % interval = time := by
  have reduced := Nat.mod_lt base (Nat.zero_lt_of_lt inside)
  have shorter : turn interval (base % interval) time < interval := by
    unfold turn
    split <;> omega
  refine ⟨base + turn interval (base % interval) time, by omega, by omega, ?_⟩
  rw [← Nat.mod_add_mod]
  unfold turn
  split
  case isTrue before =>
    rw [Nat.add_sub_cancel' (by omega), Nat.add_mod_right, Nat.mod_eq_of_lt inside]
  case isFalse behind => rw [Nat.add_sub_cancel' (by omega), Nat.mod_eq_of_lt inside]

/-- A period that overlaps none of a succession lies in one of its gaps. -/
theorem Succession.exists_gap (succession : Succession interval (p :: rest))
    (shared : q.wakeInterval = interval) (positive : 0 < interval.toNat) (lasting : q.duration ≠ 0)
    (free : ∀ other ∈ p :: rest, ¬ q.Overlaps other) :
    ∃ earlier before later, p :: rest = earlier ++ before :: later ∧
      GapHolds (comesRound interval (p :: rest)) q.duration.toNat before later := by
  have sharedQ := congrArg UInt64.toNat shared
  have sharedAll := fun other member => congrArg UInt64.toNat (succession.shared other member)
  have lasts {other : ServicePeriod} (lasting : other.duration ≠ 0) : 0 < other.duration.toNat :=
    Nat.pos_of_ne_zero fun none => lasting (UInt64.toNat_inj.mp none)
  obtain ⟨start, behindFirst, inTurn, starts⟩ :=
    exists_in_turn p.wakeTime.toNat (ServicePeriod.offset_lt shared positive)
  obtain ⟨earlier, before, later, parts, startsBefore, within⟩ :=
    exists_last_before rest behindFirst inTurn
  have beforeMember : before ∈ p :: rest := by
    rw [parts]
    simp
  refine ⟨earlier, before, later, parts, ?_⟩
  -- It starts behind the period in front of it, or that one would be running still.
  have behind : before.ends ≤ start := by
    refine Nat.not_lt.mp fun running => free before beforeMember ?_
    have sharedBefore := sharedAll before beforeMember
    rw [ServicePeriod.overlaps_comm]
    exact ServicePeriod.overlaps_of_running sharedBefore sharedQ
      (ServicePeriod.mod_wakeTime sharedBefore) starts (lasts lasting) startsBefore running
  -- It ends before the next one starts, which behind the last period is the first one again.
  have ahead : start + q.duration.toNat ≤ gapEnd (comesRound interval (p :: rest)) later := by
    refine Nat.not_lt.mp fun running => ?_
    cases later with
    | nil =>
        have sharedFirst := sharedAll p List.mem_cons_self
        have comesBack : (p.wakeTime.toNat + interval.toNat) % interval.toNat = p.offset.toNat := by
          rw [Nat.add_mod_right, ServicePeriod.mod_wakeTime sharedFirst]
        exact free p List.mem_cons_self (ServicePeriod.overlaps_of_running sharedQ sharedFirst
          starts comesBack (lasts (succession.lasting p List.mem_cons_self))
          (Nat.le_of_lt inTurn) running)
    | cons next others =>
        have member : next ∈ p :: rest := by
          rw [parts]
          simp
        have sharedNext := sharedAll next member
        exact free next member (ServicePeriod.overlaps_of_running sharedQ sharedNext starts
          (ServicePeriod.mod_wakeTime sharedNext) (lasts (succession.lasting next member))
          (Nat.le_of_lt within) running)
  exact Nat.le_trans (Nat.add_le_add_right behind _) ahead

/-- A period that starts where a gap that holds it does overlaps none of the succession. -/
theorem Succession.free_of_gap (succession : Succession interval (earlier ++ before :: later))
    (shared : q.wakeInterval = interval)
    (starts : before.ends % interval.toNat = q.offset.toNat)
    (holds : GapHolds (comesRound interval (earlier ++ before :: later)) q.duration.toNat before
      later) : ∀ other ∈ earlier ++ before :: later, ¬ q.Overlaps other := by
  intro other member
  have sharedQ := congrArg UInt64.toNat shared
  have sharedOther := congrArg UInt64.toNat (succession.shared other member)
  have startsOther := ServicePeriod.mod_wakeTime sharedOther
  have ordered := List.pairwise_append.mp succession.follow.pairwise
  have within := succession.within other member
  have beforeWithin := succession.within before (by simp)
  have followLater : Follow (comesRound interval (earlier ++ before :: later)) later :=
    succession.follow.sublist ((List.sublist_cons_self ..).trans (List.sublist_append_right ..))
  have fits := Nat.le_trans holds followLater.gapEnd_le
  have notAhead (endsBefore : other.ends ≤ before.ends) : ¬ q.Overlaps other := by
    rw [ServicePeriod.overlaps_comm]
    exact ServicePeriod.not_overlaps_of_apart sharedOther sharedQ startsOther starts endsBefore
      (Nat.le_trans fits within.2)
  rcases List.mem_append.mp member with earlierMember | laterMember
  · refine notAhead ?_
    exact Nat.le_trans (ordered.2.2 other earlierMember before List.mem_cons_self)
      (Nat.le_add_right _ _)
  · rcases List.mem_cons.mp laterMember with rfl | laterMember
    · exact notAhead (Nat.le_refl _)
    · refine ServicePeriod.not_overlaps_of_apart sharedQ sharedOther starts startsOther
        (Nat.le_trans holds (followLater.bounds other laterMember).1) ?_
      have comesLater : comesRound interval (earlier ++ before :: later) ≤
          before.wakeTime.toNat + interval.toNat := beforeWithin.2
      have ends : before.wakeTime.toNat ≤ before.ends := Nat.le_add_right _ _
      exact Nat.le_trans within.1 (Nat.le_trans comesLater (Nat.add_le_add_right ends _))

end Schedule

end TargetWakeTime
