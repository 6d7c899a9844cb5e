import TargetWakeTime.Schedule
import Mathlib.Data.List.Pairwise
import Mathlib.Tactic.SplitIfs
import Mathlib.Tactic.Tauto

/-!
Contract: how the service periods of one wake interval follow one another.

Owns:
- rings: periods in the order of their distances from the first, each starting where or after the
  one before it ends, the last one ending before the first comes round again;
- rings stay rings when periods are taken out, and when first fit puts one in;
- which periods of a ring overlap.

A first period that fills the whole interval leaves no room, but periods of no duration find a place
behind it. The chain behind the first period therefore starts at what is left of its duration modulo
the interval.
-/

namespace TargetWakeTime

namespace ServicePeriod

/-- A time of the interval's course that a period takes up. -/
def Covers (p : ServicePeriod) (time : Nat) : Prop :=
  ∃ passed < p.duration.toNat, time = (p.offset.toNat + passed) % p.wakeInterval.toNat

/-- Two periods overlap if some time of the interval's course is taken up by both. -/
def Overlaps (p q : ServicePeriod) : Prop := ∃ time, p.Covers time ∧ q.Covers time

/-- A period crowds another out if it fills the interval and the other one lasts. -/
def Crowds (p q : ServicePeriod) : Prop := p.duration = p.wakeInterval ∧ q.duration ≠ 0

theorem overlaps_comm {p q : ServicePeriod} : p.Overlaps q ↔ q.Overlaps p :=
  exists_congr fun _ => and_comm

theorem offset_lt {p : ServicePeriod} {interval : UInt64} (shared : p.wakeInterval = interval)
    (positive : 0 < interval.toNat) : p.offset.toNat < interval.toNat := by
  rw [offset, UInt64.toNat_mod, shared]
  exact Nat.mod_lt _ positive

/-- A period that starts where another ends has its offset there, one turn back if necessary. -/
theorem offset_behind {p q : ServicePeriod} (positive : 0 < p.wakeInterval.toNat)
    (fits : p.duration.toNat ≤ p.wakeInterval.toNat)
    (noOverflow : p.wakeTime.toNat + p.duration.toNat < UInt64.size)
    (sameInterval : q.wakeInterval = p.wakeInterval) (behind : q.wakeTime = p.finish) :
    q.offset.toNat = if p.offset.toNat + p.duration.toNat < p.wakeInterval.toNat
      then p.offset.toNat + p.duration.toNat
      else p.offset.toNat + p.duration.toNat - p.wakeInterval.toNat := by
  have below := offset_lt rfl positive
  have wakes : q.wakeTime.toNat = p.wakeTime.toNat + p.duration.toNat := by
    rw [behind, finish, UInt64.toNat_add, Nat.mod_eq_of_lt noOverflow]
  have reduced : q.offset.toNat =
      (p.offset.toNat + p.duration.toNat) % p.wakeInterval.toNat := by
    rw [offset, UInt64.toNat_mod, wakes, sameInterval, offset, UInt64.toNat_mod, Nat.mod_add_mod]
  rw [reduced]
  split
  case isTrue inside => exact Nat.mod_eq_of_lt inside
  case isFalse outside =>
    rw [Nat.mod_eq_sub_mod (Nat.not_lt.mp outside), Nat.mod_eq_of_lt (by omega)]

end ServicePeriod

namespace Schedule

/-- How far a time of the course of an interval lies behind another. -/
def turn (interval base time : Nat) : Nat :=
  if time < base then time + interval - base else time - base

/-- Distances are differences of distances from a common base. -/
theorem turn_of_turn_le {interval base earlier later : Nat} (baseInside : base < interval)
    (earlierInside : earlier < interval) (laterInside : later < interval)
    (ordered : turn interval base earlier ≤ turn interval base later) :
    turn interval earlier later = turn interval base later - turn interval base earlier := by
  unfold turn at ordered ⊢
  split_ifs at ordered ⊢ <;> omega

/-- How far behind the offset `base` a period starts. -/
def distance (interval base : Nat) (p : ServicePeriod) : Nat := turn interval base p.offset.toNat

/-- Periods that follow one another from a distance on, within one turn. -/
def Chain (interval base : Nat) : (level : Nat) → List ServicePeriod → Prop
  | level, [] => level ≤ interval
  | level, p :: rest =>
      level ≤ distance interval base p ∧
        Chain interval base (distance interval base p + p.duration.toNat) rest

/-- The periods of one interval, in the order of their distances from the first. -/
inductive Ring (interval : UInt64) : List ServicePeriod → Prop where
  | empty : Ring interval []
  | turn {first : ServicePeriod} {rest : List ServicePeriod} (positive : 0 < interval.toNat)
      (bounded : interval.toNat < 1 <<< 47)
      (shared : ∀ p ∈ first :: rest, p.wakeInterval = interval)
      (fits : first.duration.toNat ≤ interval.toNat)
      (chain : Chain interval.toNat first.offset.toNat
        (first.duration.toNat % interval.toNat) rest) :
      Ring interval (first :: rest)

variable {interval base level : Nat} {p : ServicePeriod} {periods rest : List ServicePeriod}

/-! ### Chains -/

theorem Chain.mono {lower : Nat} (chain : Chain interval base level periods)
    (below : lower ≤ level) : Chain interval base lower periods := by
  cases periods with
  | nil => exact Nat.le_trans below chain
  | cons p rest => exact ⟨Nat.le_trans below chain.1, chain.2⟩

theorem Chain.le (chain : Chain interval base level periods) : level ≤ interval := by
  induction periods generalizing level with
  | nil => exact chain
  | cons p rest inductionHypothesis =>
      have last := inductionHypothesis chain.2
      have first := chain.1
      omega

theorem Chain.sublist {fewer : List ServicePeriod} (chain : Chain interval base level periods)
    (sublist : fewer.Sublist periods) : Chain interval base level fewer := by
  induction sublist generalizing level with
  | slnil => exact chain
  | cons p _ inductionHypothesis =>
      exact inductionHypothesis (chain.2.mono (Nat.le_trans chain.1 (Nat.le_add_right _ _)))
  | cons_cons p _ inductionHypothesis => exact ⟨chain.1, inductionHypothesis chain.2⟩

/-- A chain seen from one of its periods. -/
theorem Chain.rebase (chain : Chain interval base level periods) (inside : base < interval)
    (below : ∀ q ∈ periods, q.offset.toNat < interval) (pivot : p.offset.toNat < interval)
    (behind : distance interval base p ≤ level) :
    Chain interval p.offset.toNat (level - distance interval base p) periods := by
  induction periods generalizing level with
  | nil =>
      have last : level ≤ interval := chain
      exact Nat.le_trans (Nat.sub_le _ _) last
  | cons q rest inductionHypothesis =>
      have qBelow := below q List.mem_cons_self
      have ordered := chain.1
      have moved : distance interval p.offset.toNat q =
          distance interval base q - distance interval base p :=
        turn_of_turn_le inside pivot qBelow (Nat.le_trans behind ordered)
      refine ⟨by omega, ?_⟩
      have later := inductionHypothesis chain.2
        (fun other member => below other (List.mem_cons_of_mem _ member)) (by omega)
      rw [moved]
      exact later.mono (by omega)

/-! ### Taking periods out -/

theorem Ring.tail {interval : UInt64} {first : ServicePeriod}
    (ring : Ring interval (first :: rest)) : Ring interval rest := by
  cases ring with
  | turn positive bounded shared fits chain =>
      have inside : ∀ q ∈ first :: rest, q.offset.toNat < interval.toNat :=
        fun q member => ServicePeriod.offset_lt (shared q member) positive
      cases rest with
      | nil => exact .empty
      | cons second later =>
          have secondFits : distance interval.toNat first.offset.toNat second +
              second.duration.toNat ≤ interval.toNat := chain.2.le
          refine .turn positive bounded (fun q member => shared q (List.mem_cons_of_mem _ member))
            (by omega) ?_
          have rebased := chain.2.rebase (p := second) (inside first List.mem_cons_self)
            (fun q member => inside q (List.mem_cons_of_mem _ (List.mem_cons_of_mem _ member)))
            (inside second (List.mem_cons_of_mem _ List.mem_cons_self)) (Nat.le_add_right _ _)
          rw [Nat.add_sub_cancel_left] at rebased
          exact rebased.mono (Nat.mod_le _ _)

/-- A ring stays one when any of its periods are taken out, the first included. -/
theorem Ring.sublist {interval : UInt64} {fewer : List ServicePeriod}
    (ring : Ring interval periods) (sublist : fewer.Sublist periods) : Ring interval fewer := by
  induction sublist with
  | slnil => exact ring
  | cons p _ inductionHypothesis => exact inductionHypothesis ring.tail
  | cons_cons p sublist _ =>
      cases ring with
      | turn positive bounded shared fits chain =>
          refine .turn positive bounded (fun q member => ?_) fits (chain.sublist sublist)
          exact shared q ((sublist.cons_cons p).subset member)

/-! ### First fit -/

/-- Whether a period has room behind a period and before those that come later, where the first
period of the ring starts at offset `first`. -/
def Room (interval duration first : UInt64) (before : ServicePeriod) :
    List ServicePeriod → Prop
  | [] =>
      let unwrapped := if before.offset < first then before.offset + interval else before.offset
      ¬ first + interval < unwrapped + before.duration + duration
  | next :: _ =>
      let nextOffset :=
        if next.offset < before.offset then next.offset + interval else next.offset
      duration.toNat ≤ nextOffset.toNat - before.offsetEnd.toNat

/-- First fit places a period at the end of another one behind which there is room. Behind the first
of several, no duration always has room. -/
theorem firstFit_eq_some {interval duration first : UInt64} {place : Place}
    (found : firstFit interval duration first periods = some place) :
    ∃ earlier before later, periods = earlier ++ before :: later ∧
      place = ⟨earlier.length + 1, before.finish⟩ ∧
      Room interval duration first before later ∧ (duration = 0 → earlier = []) := by
  induction periods generalizing place with
  | nil => cases found
  | cons current rest inductionHypothesis =>
      cases rest with
      | nil =>
          by_cases crowded : first + interval <
              (if current.offset < first then current.offset + interval else current.offset) +
                current.duration + duration
          · simp only [firstFit, if_pos crowded] at found
            cases found
          · simp only [firstFit, if_neg crowded] at found
            cases found
            exact ⟨[], current, [], rfl, rfl, crowded, fun _ => rfl⟩
      | cons next later =>
          by_cases room : duration.toNat ≤
              (if next.offset < current.offset then next.offset + interval
                else next.offset).toNat - current.offsetEnd.toNat
          · simp only [firstFit, if_pos room] at found
            cases found
            exact ⟨[], current, next :: later, rfl, rfl, room, fun _ => rfl⟩
          · simp only [firstFit, if_neg room] at found
            obtain ⟨place', found', rfl⟩ := Option.map_eq_some_iff.mp found
            obtain ⟨earlier, before, behind, parts, rfl, hasRoom, -⟩ := inductionHypothesis found'
            refine ⟨current :: earlier, before, behind, by rw [parts]; rfl, rfl, hasRoom, ?_⟩
            rintro rfl
            exact absurd (Nat.zero_le _) room

/-! ### Putting a period in -/

/-- Where the room behind a period ends. -/
def limit (interval base : Nat) : List ServicePeriod → Nat
  | [] => interval
  | next :: _ => distance interval base next

theorem Chain.le_limit (chain : Chain interval base level periods) :
    level ≤ limit interval base periods := by
  cases periods with
  | nil => exact chain
  | cons next later => exact chain.1

theorem Chain.relevel {other : Nat} (chain : Chain interval base level periods)
    (below : other ≤ limit interval base periods) : Chain interval base other periods := by
  cases periods with
  | nil => exact below
  | cons next later => exact ⟨below, chain.2⟩

theorem Chain.insert {earlier later : List ServicePeriod} {before q : ServicePeriod}
    (chain : Chain interval base level (earlier ++ before :: later))
    (placed : Chain interval base (distance interval base before + before.duration.toNat) later →
      Chain interval base (distance interval base before + before.duration.toNat) (q :: later)) :
    Chain interval base level (earlier ++ before :: q :: later) := by
  induction earlier generalizing level with
  | nil => exact ⟨chain.1, placed chain.2⟩
  | cons p rest inductionHypothesis => exact ⟨chain.1, inductionHypothesis chain.2⟩

section Room

variable {interval first duration : UInt64} {before q : ServicePeriod}
  {later : List ServicePeriod}

private theorem toNat_unwrapped {a : UInt64} (b : UInt64) (aSmall : a.toNat < 1 <<< 47)
    (intervalSmall : interval.toNat < 1 <<< 47) :
    (if a < b then a + interval else a).toNat =
      if a.toNat < b.toNat then a.toNat + interval.toNat else a.toNat := by
  simp only [UInt64.lt_iff_toNat_lt]
  split
  · rw [UInt64.toNat_add, Nat.mod_eq_of_lt (by omega)]
  · rfl

/-- Where there is room for a period that lasts, it ends before the room does. -/
theorem le_limit_of_room (bounded : interval.toNat < 1 <<< 47)
    (inside : first.toNat < interval.toNat) (beforeInside : before.offset.toNat < interval.toNat)
    (laterInside : ∀ p ∈ later, p.offset.toNat < interval.toNat)
    (fits : before.duration.toNat ≤ interval.toNat) (durationFits : duration.toNat ≤ interval.toNat)
    (lasts : 0 < duration.toNat)
    (ordered : distance interval.toNat first.toNat before ≤
      limit interval.toNat first.toNat later)
    (room : Room interval duration first before later) :
    distance interval.toNat first.toNat before + before.duration.toNat + duration.toNat ≤
      limit interval.toNat first.toNat later := by
  cases later with
  | nil =>
      have notBehind := UInt64.le_iff_toNat_le.mp (UInt64.not_lt.mp room)
      have unwrapped := toNat_unwrapped first (Nat.lt_trans beforeInside bounded) bounded
      have unwrappedSmall :
          (if before.offset.toNat < first.toNat then before.offset.toNat + interval.toNat
            else before.offset.toNat) < 1 <<< 48 := by
        split <;> omega
      rw [UInt64.toNat_add, UInt64.toNat_add, UInt64.toNat_add, unwrapped,
        Nat.mod_eq_of_lt (a := first.toNat + interval.toNat) (by omega), Nat.mod_add_mod,
        Nat.mod_eq_of_lt (by omega)] at notBehind
      simp only [limit, distance, turn]
      split_ifs at notBehind ⊢ <;> omega
  | cons next rest =>
      have nextInside := laterInside next List.mem_cons_self
      have gap : distance interval.toNat first.toNat next -
          distance interval.toNat first.toNat before =
            turn interval.toNat before.offset.toNat next.offset.toNat :=
        (turn_of_turn_le inside beforeInside nextInside ordered).symm
      have ends : before.offsetEnd.toNat = before.offset.toNat + before.duration.toNat := by
        rw [ServicePeriod.offsetEnd, UInt64.toNat_add, Nat.mod_eq_of_lt (by omega)]
      have unwrapped := toNat_unwrapped before.offset (Nat.lt_trans nextInside bounded) bounded
      have fitsGap : duration.toNat ≤
          (if next.offset.toNat < before.offset.toNat then next.offset.toNat + interval.toNat
            else next.offset.toNat) - (before.offset.toNat + before.duration.toNat) := by
        rw [← unwrapped, ← ends]
        exact room
      unfold turn at gap
      simp only [limit] at ordered ⊢
      split_ifs at gap fitsGap <;> omega

/-- A period that starts where another ends is as far behind the first as that one's end, unless it
comes round to the first. -/
theorem distance_behind {base : Nat} (inside : base < interval.toNat)
    (sharedBefore : before.wakeInterval = interval) (sharedQ : q.wakeInterval = interval)
    (noOverflow : before.wakeTime.toNat + before.duration.toNat < UInt64.size)
    (behind : q.wakeTime = before.finish)
    (fits : distance interval.toNat base before + before.duration.toNat ≤ interval.toNat) :
    distance interval.toNat base q =
      if distance interval.toNat base before + before.duration.toNat < interval.toNat
      then distance interval.toNat base before + before.duration.toNat else 0 := by
  have positive : 0 < before.wakeInterval.toNat := by
    rw [sharedBefore]
    omega
  have beforeInside := ServicePeriod.offset_lt sharedBefore (Nat.zero_lt_of_lt inside)
  have starts := ServicePeriod.offset_behind positive (by rw [sharedBefore]; omega) noOverflow
    (sharedQ.trans sharedBefore.symm) behind
  rw [sharedBefore] at starts
  unfold distance turn at fits ⊢
  rw [starts]
  split_ifs at fits ⊢ <;> omega

/-- A period that lasts takes its place in a chain where there is room for it. -/
theorem chain_of_room (bounded : interval.toNat < 1 <<< 47) (inside : first.toNat < interval.toNat)
    (shared : ∀ p ∈ before :: q :: later, p.wakeInterval = interval)
    (fits : before.duration.toNat ≤ interval.toNat) (qFits : q.duration.toNat ≤ interval.toNat)
    (lasts : 0 < q.duration.toNat)
    (noOverflow : before.wakeTime.toNat + before.duration.toNat < UInt64.size)
    (behind : q.wakeTime = before.finish)
    (room : Room interval q.duration first before later)
    (ordered : distance interval.toNat first.toNat before ≤
      limit interval.toNat first.toNat later)
    (chain : Chain interval.toNat first.toNat level later) :
    Chain interval.toNat first.toNat
      (distance interval.toNat first.toNat before + before.duration.toNat) (q :: later) := by
  have offsetsInside : ∀ p ∈ before :: q :: later, p.offset.toNat < interval.toNat :=
    fun p member => ServicePeriod.offset_lt (shared p member) (Nat.zero_lt_of_lt inside)
  have ends := le_limit_of_room bounded inside (offsetsInside before (by simp))
    (fun p member => offsetsInside p (by simp [member])) fits qFits lasts ordered room
  have limitInside : limit interval.toNat first.toNat later ≤ interval.toNat :=
    (chain.relevel (Nat.le_refl _)).le
  have starts := distance_behind inside (shared before (by simp)) (shared q (by simp)) noOverflow
    behind (by omega)
  rw [if_pos (by omega)] at starts
  refine ⟨Nat.le_of_eq starts.symm, ?_⟩
  rw [starts]
  exact chain.relevel ends

end Room

theorem distance_self (interval : Nat) (p : ServicePeriod) :
    distance interval p.offset.toNat p = 0 := by
  simp [distance, turn]

/-- A new period may go behind the first one in any case in which first fit puts it there. -/
private theorem chain_behind_first {interval : UInt64} {first q : ServicePeriod}
    (positive : 0 < interval.toNat) (bounded : interval.toNat < 1 <<< 47)
    (shared : ∀ p ∈ first :: q :: rest, p.wakeInterval = interval)
    (fits : first.duration.toNat ≤ interval.toNat) (qFits : q.duration.toNat ≤ interval.toNat)
    (noOverflow : first.wakeTime.toNat + first.duration.toNat < UInt64.size)
    (behind : q.wakeTime = first.finish) (room : Room interval q.duration first.offset first rest)
    (chain : Chain interval.toNat first.offset.toNat (first.duration.toNat % interval.toNat) rest) :
    Chain interval.toNat first.offset.toNat (first.duration.toNat % interval.toNat)
      (q :: rest) := by
  have sharedFirst := shared first (by simp)
  have sharedQ := shared q (by simp)
  have inside := ServicePeriod.offset_lt sharedFirst positive
  rcases Nat.eq_zero_or_pos q.duration.toNat with nothing | lasts
  -- Behind a period that fills the interval, one of no duration starts together with it.
  · have starts := distance_behind inside sharedFirst sharedQ noOverflow behind
      (by rw [distance_self]; omega)
    have starts' : distance interval.toNat first.offset.toNat q =
        first.duration.toNat % interval.toNat := by
      rw [starts, distance_self, Nat.zero_add]
      split
      case isTrue less => exact (Nat.mod_eq_of_lt less).symm
      case isFalse full => rw [Nat.le_antisymm fits (Nat.not_lt.mp full), Nat.mod_self]
    refine ⟨Nat.le_of_eq starts'.symm, ?_⟩
    rw [starts', nothing]
    exact chain
  · have placed := chain_of_room bounded inside shared fits qFits lasts noOverflow behind room
      (by rw [distance_self]; exact Nat.zero_le _) chain
    rw [distance_self, Nat.zero_add] at placed
    exact placed.mono (Nat.mod_le _ _)

theorem insert_behind {α : Type} (earlier later : List α) (before q : α) :
    (earlier ++ before :: later).take (earlier.length + 1) ++
        q :: (earlier ++ before :: later).drop (earlier.length + 1) =
      earlier ++ before :: q :: later := by
  rw [List.take_append, List.drop_append, List.take_of_length_le (Nat.le_succ _),
    List.drop_eq_nil_of_le (Nat.le_succ _)]
  simp

/-- First fit keeps a ring, as long as the wake time that it gives does not overflow. -/
theorem Ring.insert {interval : UInt64} {first q : ServicePeriod} {place : Place}
    (ring : Ring interval (first :: rest))
    (found : firstFit interval q.duration first.offset (first :: rest) = some place)
    (sharedQ : q.wakeInterval = interval) (qFits : q.duration.toNat ≤ interval.toNat)
    (wakes : q.wakeTime = place.wakeTime)
    (noOverflow : ∀ index before, place.position = index + 1 →
      (first :: rest)[index]? = some before →
      before.wakeTime.toNat + before.duration.toNat < UInt64.size) :
    Ring interval ((first :: rest).take place.position ++
      q :: (first :: rest).drop place.position) := by
  obtain ⟨earlier, before, later, parts, rfl, room, onlyFirst⟩ := firstFit_eq_some found
  cases ring with
  | turn positive bounded shared fits chain =>
      have ends : before.wakeTime.toNat + before.duration.toNat < UInt64.size :=
        noOverflow earlier.length before rfl (by rw [parts]; simp)
      have taken : (first :: rest).take (earlier.length + 1) ++
          q :: (first :: rest).drop (earlier.length + 1) = earlier ++ before :: q :: later := by
        rw [parts, insert_behind]
      rw [taken]
      have sharedAll : ∀ p ∈ earlier ++ before :: q :: later, p.wakeInterval = interval := by
        intro p member
        have old : p = q ∨ p ∈ first :: rest := by
          rw [parts]
          simp only [List.mem_append, List.mem_cons] at member ⊢
          tauto
        rcases old with rfl | old
        · exact sharedQ
        · exact shared p old
      cases earlier with
      | nil =>
          cases parts
          exact .turn positive bounded sharedAll fits
            (chain_behind_first positive bounded sharedAll fits qFits ends wakes room chain)
      -- No duration would have found its place behind the first period.
      | cons head more =>
          cases parts
          have lasts : 0 < q.duration.toNat := by
            rcases Nat.eq_zero_or_pos q.duration.toNat with nothing | lasts
            · cases onlyFirst (UInt64.toNat_inj.mp nothing)
            · exact lasts
          refine .turn positive bounded sharedAll fits (chain.insert fun behind => ?_)
          have inside := ServicePeriod.offset_lt (sharedAll first List.mem_cons_self) positive
          have fitsTurn := behind.le
          have ordered := behind.le_limit
          exact chain_of_room bounded inside
            (fun p member => sharedAll p (List.mem_append_right _ member)) (by omega) qFits lasts
            ends wakes room (by omega) behind

/-! ### Overlaps -/

theorem Chain.bounds (chain : Chain interval base level periods) :
    ∀ p ∈ periods, level ≤ distance interval base p ∧
      distance interval base p + p.duration.toNat ≤ interval := by
  induction periods generalizing level with
  | nil => simp
  | cons first rest inductionHypothesis =>
      intro p member
      rcases List.mem_cons.mp member with rfl | later
      · exact ⟨chain.1, chain.2.le⟩
      · have bounds := inductionHypothesis chain.2 p later
        have ordered := chain.1
        exact ⟨by omega, bounds.2⟩

theorem Chain.pairwise (chain : Chain interval base level periods) :
    periods.Pairwise fun p q =>
      distance interval base p + p.duration.toNat ≤ distance interval base q := by
  induction periods generalizing level with
  | nil => exact List.Pairwise.nil
  | cons first rest inductionHypothesis =>
      exact List.pairwise_cons.mpr
        ⟨fun q member => (chain.2.bounds q member).1, inductionHypothesis chain.2⟩

/-- What a period takes up within one turn lies between its distance and its end. -/
theorem turn_of_covers {time : Nat} (inside : base < interval)
    (shared : p.wakeInterval.toNat = interval)
    (fits : distance interval base p + p.duration.toNat ≤ interval) (covers : p.Covers time) :
    distance interval base p ≤ turn interval base time ∧
      turn interval base time < distance interval base p + p.duration.toNat := by
  obtain ⟨passed, within, rfl⟩ := covers
  have offsetInside : p.offset.toNat < interval := by
    rw [← shared] at inside ⊢
    exact ServicePeriod.offset_lt rfl (Nat.zero_lt_of_lt inside)
  have reduced : (p.offset.toNat + passed) % interval =
      if p.offset.toNat + passed < interval then p.offset.toNat + passed
      else p.offset.toNat + passed - interval := by
    split
    case isTrue less => exact Nat.mod_eq_of_lt less
    case isFalse more =>
      have shorter : passed < interval := by omega
      rw [Nat.mod_eq_sub_mod (Nat.not_lt.mp more), Nat.mod_eq_of_lt (by omega)]
  rw [shared, reduced]
  unfold distance turn at fits ⊢
  split_ifs at fits ⊢ <;> omega

/-- A period that fills its interval takes up every time of it. -/
theorem covers_of_fills {time : Nat} (fills : p.duration = p.wakeInterval)
    (inside : time < p.wakeInterval.toNat) : p.Covers time := by
  have offsetInside := ServicePeriod.offset_lt (p := p) rfl (Nat.zero_lt_of_lt inside)
  refine ⟨turn p.wakeInterval.toNat p.offset.toNat time, ?_, ?_⟩
  · rw [fills]
    unfold turn
    split_ifs <;> omega
  · unfold turn
    split
    case isTrue before =>
      rw [Nat.add_sub_cancel' (by omega), Nat.add_mod_right, Nat.mod_eq_of_lt inside]
    case isFalse behind => rw [Nat.add_sub_cancel' (by omega), Nat.mod_eq_of_lt inside]

private theorem overlaps_iff_of_le {q : ServicePeriod} (inside : base < interval)
    (shared : p.wakeInterval.toNat = interval) (sharedQ : q.wakeInterval.toNat = interval)
    (ordered : distance interval base p + p.duration.toNat ≤ distance interval base q)
    (fits : distance interval base q + q.duration.toNat ≤ interval) :
    p.Overlaps q ↔ p.Crowds q ∨ q.Crowds p := by
  constructor
  · rintro ⟨time, coversP, coversQ⟩
    have byP := turn_of_covers inside shared (by omega) coversP
    have byQ := turn_of_covers inside sharedQ fits coversQ
    omega
  · rintro (⟨fills, lasts⟩ | ⟨fills, lasts⟩)
    · have lasts' : q.duration.toNat ≠ 0 := fun none => lasts (UInt64.toNat_inj.mp none)
      rw [fills] at ordered
      omega
    · have lasts' : p.duration.toNat ≠ 0 := fun none => lasts (UInt64.toNat_inj.mp none)
      rw [fills] at fits
      omega

/-- Two periods of a ring overlap exactly if one of them crowds the other out. -/
theorem Ring.overlaps_iff {interval : UInt64} (ring : Ring interval periods) :
    periods.Pairwise fun p q => p.Overlaps q ↔ p.Crowds q ∨ q.Crowds p := by
  cases ring with
  | empty => exact List.Pairwise.nil
  | @turn first rest positive bounded shared fits chain =>
      have sharedNat : ∀ p ∈ first :: rest, p.wakeInterval.toNat = interval.toNat :=
        fun p member => congrArg UInt64.toNat (shared p member)
      have inside := ServicePeriod.offset_lt (shared first List.mem_cons_self) positive
      refine List.pairwise_cons.mpr ⟨fun q member => ?_, ?_⟩
      · have qShared := sharedNat q (List.mem_cons_of_mem _ member)
        have bounds := chain.bounds q member
        rcases Nat.lt_or_ge first.duration.toNat interval.toNat with shorter | full
        · refine overlaps_iff_of_le inside (sharedNat first List.mem_cons_self) qShared ?_ bounds.2
          rw [distance_self, Nat.zero_add]
          rw [Nat.mod_eq_of_lt shorter] at bounds
          exact bounds.1
        · have fills : first.duration = first.wakeInterval := by
            rw [shared first List.mem_cons_self]
            exact UInt64.toNat_inj.mp (Nat.le_antisymm fits full)
          constructor
          · rintro ⟨time, -, passed, within, -⟩
            refine Or.inl ⟨fills, fun none => ?_⟩
            rw [none] at within
            exact Nat.not_lt_zero _ within
          · intro crowds
            have lasts : 0 < q.duration.toNat := by
              rcases crowds with ⟨-, lasts⟩ | ⟨qFills, -⟩
              · exact Nat.pos_of_ne_zero fun none => lasts (UInt64.toNat_inj.mp none)
              · rw [qFills, qShared]
                exact positive
            refine ⟨_, covers_of_fills fills ?_, 0, lasts, rfl⟩
            rw [qShared, sharedNat first List.mem_cons_self]
            exact Nat.mod_lt _ positive
      · refine chain.pairwise.imp_of_mem fun memberP memberQ ordered => ?_
        exact overlaps_iff_of_le inside (sharedNat _ (List.mem_cons_of_mem _ memberP))
          (sharedNat _ (List.mem_cons_of_mem _ memberQ)) ordered (chain.bounds _ memberQ).2

end Schedule

end TargetWakeTime
