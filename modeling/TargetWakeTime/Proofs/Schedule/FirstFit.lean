import TargetWakeTime.Proofs.Schedule.Lookup
import TargetWakeTime.Proofs.Schedule.Succession
import Mathlib.Logic.Function.Basic

/-!
Contract: first fit finds a place for a period in a succession exactly if there is one.

Owns:
- the sums that first fit forms, under which its words count as numbers;
- the test of first fit for a gap, which works with offsets, as a statement about wake times;
- what scheduling makes of a wake interval whose members are in line: the first gap, and members that
  are in line again.

An offset that is smaller than the one before it has gone round. In a succession the next period lies
less than one turn ahead, so that adding the interval once gives its distance.
-/

namespace TargetWakeTime.Schedule

/-- The sums that first fit forms, not reduced to words. Of sums that are formed one upon another
only the last one is listed. -/
def firstFitSums (interval duration first : UInt64) : List ServicePeriod → List Nat
  | [] => []
  | [last] =>
      let unwrapped := if last.offset < first then last.offset + interval else last.offset
      [if last.offset < first then last.offset.toNat + interval.toNat else last.offset.toNat,
        unwrapped.toNat + last.duration.toNat + duration.toNat,
        first.toNat + interval.toNat] ++
      if first + interval < unwrapped + last.duration + duration then [] else [last.ends]
  | current :: next :: rest =>
      let nextOffset :=
        if next.offset < current.offset then next.offset + interval else next.offset
      [if next.offset < current.offset then next.offset.toNat + interval.toNat
          else next.offset.toNat,
        current.offset.toNat + current.duration.toNat] ++
      if duration.toNat ≤ nextOffset.toNat - current.offsetEnd.toNat then [current.ends]
      else firstFitSums interval duration first (next :: rest)

/-- The sums that are formed to place a period among others. -/
def placeSums (interval duration : UInt64) : List ServicePeriod → List Nat
  | [] => []
  | first :: rest => firstFitSums interval duration first.offset (first :: rest)

/-- The members of an interval all have periods, and these form a succession. -/
structure InLine (lookup : AgreementKey → Option ServicePeriod) (interval : UInt64)
    (s : Schedule) : Prop where
  known : ∀ member ∈ s.entries interval, ∃ p, lookup member = some p
  succession : Succession interval (s.periods lookup interval)

variable {interval duration : UInt64} {first p q : ServicePeriod} {periods : List ServicePeriod}

/-! ### Offsets and wake times -/

/-- How far ahead of a period another one starts, if it starts within one turn. -/
theorem offset_ahead (sharedP : p.wakeInterval = interval) (sharedQ : q.wakeInterval = interval)
    (ahead : p.wakeTime.toNat ≤ q.wakeTime.toNat)
    (within : q.wakeTime.toNat < p.wakeTime.toNat + interval.toNat) :
    (if q.offset < p.offset then q.offset.toNat + interval.toNat else q.offset.toNat) =
      p.offset.toNat + (q.wakeTime.toNat - p.wakeTime.toNat) := by
  have inside : p.offset.toNat < interval.toNat := ServicePeriod.offset_lt sharedP (by omega)
  have reduced : q.offset.toNat =
      (p.offset.toNat + (q.wakeTime.toNat - p.wakeTime.toNat)) % interval.toNat := by
    rw [← ServicePeriod.mod_wakeTime (congrArg UInt64.toNat sharedP),
      ← ServicePeriod.mod_wakeTime (congrArg UInt64.toNat sharedQ), Nat.mod_add_mod,
      Nat.add_sub_cancel' ahead]
  simp only [UInt64.lt_iff_toNat_lt]
  rcases Nat.lt_or_ge (p.offset.toNat + (q.wakeTime.toNat - p.wakeTime.toNat)) interval.toNat with
    sameTurn | nextTurn
  · rw [Nat.mod_eq_of_lt sameTurn] at reduced
    rw [if_neg (by omega), reduced]
  · rw [Nat.mod_eq_sub_mod nextTurn, Nat.mod_eq_of_lt (by omega)] at reduced
    rw [if_pos (by omega), reduced]
    omega

/-- The same as first fit computes it, if its sum is exact. -/
theorem toNat_offset_ahead (sharedP : p.wakeInterval = interval)
    (sharedQ : q.wakeInterval = interval) (ahead : p.wakeTime.toNat ≤ q.wakeTime.toNat)
    (within : q.wakeTime.toNat < p.wakeTime.toNat + interval.toNat)
    (exactSum : (if q.offset < p.offset then q.offset.toNat + interval.toNat else q.offset.toNat) <
      UInt64.size) :
    (if q.offset < p.offset then q.offset + interval else q.offset).toNat =
      p.offset.toNat + (q.wakeTime.toNat - p.wakeTime.toNat) := by
  rw [← offset_ahead sharedP sharedQ ahead within]
  split
  case isTrue wrapped =>
    rw [if_pos wrapped] at exactSum
    rw [UInt64.toNat_add, Nat.mod_eq_of_lt exactSum]
  case isFalse => rfl

theorem toNat_finish (fits : p.ends < UInt64.size) : p.finish.toNat = p.ends := by
  rw [ServicePeriod.finish, UInt64.toNat_add]
  exact Nat.mod_eq_of_lt fits

/-! ### The tests of first fit -/

/-- Between two neighbours, first fit compares a duration with the gap between their wake times. -/
theorem le_gap_iff (duration : UInt64) (limit : Nat) (later : List ServicePeriod)
    (sharedP : p.wakeInterval = interval) (sharedQ : q.wakeInterval = interval)
    (follows : p.ends ≤ q.wakeTime.toNat)
    (within : q.wakeTime.toNat < p.wakeTime.toNat + interval.toNat)
    (exactOffset : (if q.offset < p.offset then q.offset.toNat + interval.toNat
      else q.offset.toNat) < UInt64.size)
    (exactEnd : p.offset.toNat + p.duration.toNat < UInt64.size) :
    duration.toNat ≤ (if q.offset < p.offset then q.offset + interval else q.offset).toNat -
        p.offsetEnd.toNat ↔
      GapHolds limit duration.toNat p (q :: later) := by
  have follows : p.wakeTime.toNat + p.duration.toNat ≤ q.wakeTime.toNat := follows
  rw [toNat_offset_ahead sharedP sharedQ (by omega) within exactOffset, ServicePeriod.offsetEnd,
    UInt64.toNat_add, Nat.mod_eq_of_lt exactEnd]
  simp only [GapHolds, gapEnd, ServicePeriod.ends]
  omega

/-- Behind the last period, first fit compares with the time at which the first comes round. -/
theorem not_turn_lt_iff (duration : UInt64) (sharedFirst : first.wakeInterval = interval)
    (sharedP : p.wakeInterval = interval) (ahead : first.wakeTime.toNat ≤ p.wakeTime.toNat)
    (within : p.wakeTime.toNat < first.wakeTime.toNat + interval.toNat)
    (exactOffset : (if p.offset < first.offset then p.offset.toNat + interval.toNat
      else p.offset.toNat) < UInt64.size)
    (exactEnd : (if p.offset < first.offset then p.offset + interval else p.offset).toNat +
      p.duration.toNat + duration.toNat < UInt64.size)
    (exactTurn : first.offset.toNat + interval.toNat < UInt64.size) :
    ¬ first.offset + interval < (if p.offset < first.offset then p.offset + interval
        else p.offset) + p.duration + duration ↔
      GapHolds (first.wakeTime.toNat + interval.toNat) duration.toNat p [] := by
  have unwrapped := toNat_offset_ahead sharedFirst sharedP ahead within exactOffset
  rw [UInt64.lt_iff_toNat_lt, UInt64.toNat_add, Nat.mod_eq_of_lt exactTurn, UInt64.toNat_add,
    UInt64.toNat_add, Nat.mod_add_mod, Nat.mod_eq_of_lt exactEnd, unwrapped]
  simp only [GapHolds, gapEnd, ServicePeriod.ends]
  omega

private theorem forall_split_cons {rest : List ServicePeriod}
    {holds : ServicePeriod → List ServicePeriod → Prop} (first : holds p rest)
    (behind : ∀ earlier before later, rest = earlier ++ before :: later → holds before later) :
    ∀ earlier before later, p :: rest = earlier ++ before :: later → holds before later := by
  intro earlier before later parts
  cases earlier with
  | nil =>
      cases parts
      exact first
  | cons _ more =>
      cases parts
      exact behind more before later rfl

/-- First fit gives the first gap that holds the duration, and fails exactly if no gap does. -/
theorem firstFit_spec (duration : UInt64) (sharedFirst : first.wakeInterval = interval)
    (shared : ∀ p ∈ periods, p.wakeInterval = interval) (lasting : ∀ p ∈ periods, p.duration ≠ 0)
    (follow : Follow (first.wakeTime.toNat + interval.toNat) periods)
    (ahead : ∀ p ∈ periods, first.wakeTime.toNat ≤ p.wakeTime.toNat)
    (exactSums : ∀ sum ∈ firstFitSums interval duration first.offset periods, sum < UInt64.size) :
    (∀ place, firstFit interval duration first.offset periods = some place →
      FirstGap (first.wakeTime.toNat + interval.toNat) duration.toNat periods place) ∧
    (firstFit interval duration first.offset periods = none →
      ∀ earlier before later, periods = earlier ++ before :: later →
        ¬ GapHolds (first.wakeTime.toNat + interval.toNat) duration.toNat before later) := by
  have inTurn : ∀ p ∈ periods, p.wakeTime.toNat < first.wakeTime.toNat + interval.toNat := by
    intro p member
    have ends : p.wakeTime.toNat + p.duration.toNat ≤ _ := (follow.bounds p member).2
    have lasts : p.duration.toNat ≠ 0 := fun none => lasting p member (UInt64.toNat_inj.mp none)
    omega
  induction periods with
  | nil => simp [firstFit]
  | cons current rest inductionHypothesis =>
      have currentAhead := ahead current List.mem_cons_self
      have sharedCurrent := shared current List.mem_cons_self
      cases rest with
      | nil =>
          have test := not_turn_lt_iff duration sharedFirst sharedCurrent currentAhead
            (inTurn current List.mem_cons_self) (exactSums _ (by simp [firstFitSums]))
            (exactSums _ (by simp [firstFitSums])) (exactSums _ (by simp [firstFitSums]))
          by_cases crowded : first.offset + interval <
              (if current.offset < first.offset then current.offset + interval
                else current.offset) + current.duration + duration
          case pos =>
            simp only [firstFit, if_pos crowded]
            refine ⟨by simp, fun _ => ?_⟩
            exact forall_split_cons (fun holds => test.mpr holds crowded) (by simp)
          case neg =>
            simp only [firstFit, if_neg crowded]
            refine ⟨fun place found => ?_, by simp⟩
            cases found
            refine .here (test.mp crowded) (toNat_finish (exactSums _ ?_))
            simp [firstFitSums, crowded]
      | cons next later =>
          have nextMember : next ∈ current :: next :: later := by simp
          have test := le_gap_iff duration (first.wakeTime.toNat + interval.toNat) later
            sharedCurrent (shared next nextMember) follow.1
            (Nat.lt_of_lt_of_le (inTurn next nextMember) (Nat.add_le_add_right currentAhead _))
            (exactSums _ (by simp [firstFitSums])) (exactSums _ (by simp [firstFitSums]))
          by_cases room : duration.toNat ≤
              (if next.offset < current.offset then next.offset + interval
                else next.offset).toNat - current.offsetEnd.toNat
          case pos =>
            simp only [firstFit, if_pos room]
            refine ⟨fun place found => ?_, by simp⟩
            cases found
            refine .here (test.mp room) (toNat_finish (exactSums _ ?_))
            simp [firstFitSums, room]
          case neg =>
            simp only [firstFit, if_neg room, Option.map_eq_some_iff, Option.map_eq_none_iff]
            have small := mt test.mpr room
            obtain ⟨found, missed⟩ := inductionHypothesis
              (fun p member => shared p (List.mem_cons_of_mem _ member))
              (fun p member => lasting p (List.mem_cons_of_mem _ member)) follow.2
              (fun p member => ahead p (List.mem_cons_of_mem _ member))
              (fun sum member => exactSums sum (by
                simp only [firstFitSums, if_neg room]
                exact List.mem_append_right _ member))
              (fun p member => inTurn p (List.mem_cons_of_mem _ member))
            refine ⟨?_, fun none => forall_split_cons small (missed none)⟩
            rintro _ ⟨place, placed, rfl⟩
            exact .behind small (found place placed)

/-! ### Placing among members in line -/

variable {lookup : AgreementKey → Option ServicePeriod} {keys : List AgreementKey}

/-- Placing among members in line gives the first gap that holds the duration, and fails exactly if
no gap does. -/
theorem place_spec (succession : Succession interval periods)
    (found : keys.map lookup = periods.map some) (occupied : periods ≠ [])
    (exactSums : ∀ sum ∈ placeSums interval duration periods, sum < UInt64.size) :
    (∀ place, Schedule.place lookup interval duration keys = .ok place →
      FirstGap (comesRound interval periods) duration.toNat periods place) ∧
    ((¬ ∃ place, Schedule.place lookup interval duration keys = .ok place) →
      ∀ earlier before later, periods = earlier ++ before :: later →
        ¬ GapHolds (comesRound interval periods) duration.toNat before later) := by
  cases periods with
  | nil => exact absurd rfl occupied
  | cons first rest =>
      have spec := firstFit_spec duration (succession.shared first List.mem_cons_self)
        succession.shared succession.lasting succession.follow
        (fun p member => (succession.follow.bounds p member).1) exactSums
      have resolved := resolve_of_map_lookup found
      cases fitted : firstFit interval duration first.offset (first :: rest) with
      | none =>
          simp only [place, resolved, fitted]
          exact ⟨by simp, fun _ => spec.2 fitted⟩
      | some place =>
          simp only [Schedule.place, resolved, fitted]
          refine ⟨fun placed same => ?_, fun none => absurd ⟨place, rfl⟩ none⟩
          cases same
          exact spec.1 place fitted

/-- There is a place exactly if a period of that duration can start somewhere in the interval without
an overlap. -/
theorem exists_place_iff_free {length : UInt32} (positive : 0 < interval.toNat) (lasts : length ≠ 0)
    (succession : Succession interval periods) (found : keys.map lookup = periods.map some)
    (occupied : periods ≠ [])
    (exactSums : ∀ sum ∈ placeSums interval length.toUInt64 periods, sum < UInt64.size) :
    (∃ place, Schedule.place lookup interval length.toUInt64 keys = .ok place) ↔
      ∃ start < interval, ∀ p ∈ periods, ¬ (⟨start, interval, length⟩ : ServicePeriod).Overlaps p := by
  obtain ⟨placed, missed⟩ := place_spec succession found occupied exactSums
  constructor
  · rintro ⟨place, fitted⟩
    obtain ⟨earlier, before, later, rfl, -, -, holds⟩ := (placed place fitted).split
    have inside := Nat.mod_lt before.ends positive
    have start : (UInt64.ofNat (before.ends % interval.toNat)).toNat =
        before.ends % interval.toNat :=
      UInt64.toNat_ofNat_of_lt (Nat.lt_trans inside interval.toNat_lt)
    refine ⟨UInt64.ofNat (before.ends % interval.toNat), ?_, ?_⟩
    · rw [UInt64.lt_iff_toNat_lt, start]
      exact inside
    · refine succession.free_of_gap rfl ?_ holds
      rw [ServicePeriod.offset, UInt64.toNat_mod, start, Nat.mod_mod]
  · rintro ⟨start, -, free⟩
    by_contra none
    cases periods with
    | nil => exact occupied rfl
    | cons first rest =>
        have lasting : (⟨start, interval, length⟩ : ServicePeriod).duration ≠ 0 :=
          fun zero => lasts (UInt32.toNat_inj.mp (congrArg UInt64.toNat zero))
        obtain ⟨earlier, before, later, parts, holds⟩ :=
          succession.exists_gap rfl positive lasting free
        exact missed none earlier before later parts holds

/-! ### Scheduling among members in line -/

variable {s after : Schedule} {key gone : AgreementKey} {a granted : Agreement}
  {command : SetupCommand}

theorem InLine.remove (wellFormed : s.WellFormed) (inLine : s.InLine lookup interval) :
    (s.remove gone).InLine lookup interval where
  known member held := inLine.known member ((mem_entries_remove wellFormed).mp held).1
  succession := by
    rw [periods, entries_remove wellFormed]
    exact inLine.succession.sublist (List.filter_sublist.filterMap lookup)

theorem InLine.found (inLine : s.InLine lookup interval) :
    (s.entries interval).map lookup = (s.periods lookup interval).map some :=
  map_lookup_of_known inLine.known

theorem InLine.of_found (periods : List ServicePeriod)
    (found : (s.entries interval).map lookup = periods.map some)
    (succession : Succession interval periods) : s.InLine lookup interval where
  known member held := by
    have looked := List.mem_map_of_mem (f := lookup) held
    rw [found] at looked
    obtain ⟨p, -, holds⟩ := List.mem_map.mp looked
    exact ⟨p, holds.symm⟩
  succession := by
    rw [Schedule.periods, filterMap_of_map_lookup found]
    exact succession

theorem InLine.occupied_iff (inLine : s.InLine lookup interval) :
    s.periods lookup interval ≠ [] ↔ s.entries interval ≠ [] := by
  rw [ne_eq, ne_eq, not_iff_not, ← List.map_eq_nil_iff (f := some), ← inLine.found,
    List.map_eq_nil_iff]

/-- What scheduling does for an agreement that fits its interval and is not demanded, once another
member has the group. -/
theorem schedule_of_occupied (nonzero : a.wakeInterval ≠ 0)
    (fits : a.wakeDuration.toUInt64 ≤ a.wakeInterval) (notDemand : command ≠ .demand)
    (occupied : (s.remove key).entries a.wakeInterval ≠ []) :
    schedule key a command lookup s =
      match place lookup a.wakeInterval a.wakeDuration.toUInt64
          ((s.remove key).entries a.wakeInterval) with
      | .error error => (.error error, s.remove key)
      | .ok place => (.ok { a with wakeTime := place.wakeTime },
          (s.remove key).put a.wakeInterval
            (((s.remove key).entries a.wakeInterval).take place.position ++
              key :: ((s.remove key).entries a.wakeInterval).drop place.position)) := by
  have notEmpty : ((s.remove key).entries a.wakeInterval).isEmpty = false :=
    List.isEmpty_eq_false_iff.mpr occupied
  cases placed : place lookup a.wakeInterval a.wakeDuration.toUInt64
      ((s.remove key).entries a.wakeInterval) with
  | error error
  | ok place =>
    simp only [schedule, assign, if_neg nonzero, if_neg (UInt64.not_lt.mpr fits), notEmpty,
      if_neg notDemand, Bool.false_eq_true, if_false, placed, Except.map]

/-- Scheduling succeeds among members in line exactly if a period as long as the agreement's can
start somewhere without an overlap. -/
theorem exists_granted_iff (positive : a.wakeInterval ≠ 0) (lasts : a.wakeDuration ≠ 0)
    (notDemand : command ≠ .demand) (inLine : (s.remove key).InLine lookup a.wakeInterval)
    (exactSums : ∀ sum ∈ placeSums a.wakeInterval a.wakeDuration.toUInt64
      ((s.remove key).periods lookup a.wakeInterval), sum < UInt64.size) :
    (∃ granted, (schedule key a command lookup s).1 = .ok granted) ↔
      a.wakeDuration.toUInt64 ≤ a.wakeInterval ∧
        ∃ start < a.wakeInterval, ∀ p ∈ (s.remove key).periods lookup a.wakeInterval,
          ¬ (ServicePeriod.ofAgreement { a with wakeTime := start }).Overlaps p := by
  have above : 0 < a.wakeInterval.toNat :=
    Nat.pos_of_ne_zero fun zero => positive (UInt64.toNat_inj.mp zero)
  by_cases fits : a.wakeDuration.toUInt64 ≤ a.wakeInterval
  case neg =>
    have long : a.wakeInterval < a.wakeDuration.toUInt64 := UInt64.not_le.mp fits
    simp [schedule, assign, Except.map, positive, long, fits]
  case pos =>
    simp only [fits, true_and]
    by_cases occupied : (s.remove key).entries a.wakeInterval = []
    case pos =>
      have nobody : (s.remove key).periods lookup a.wakeInterval = [] := by
        rw [periods, occupied]
        rfl
      refine iff_of_true ⟨{ a with wakeTime := 0 }, ?_⟩ ⟨0, UInt64.lt_iff_toNat_lt.mpr above, ?_⟩
      · simp [schedule, assign, Except.map, positive, UInt64.not_lt.mpr fits, occupied]
      · simp [nobody]
    case neg =>
      have free := exists_place_iff_free above lasts inLine.succession inLine.found
        (inLine.occupied_iff.mpr occupied) exactSums
      rw [schedule_of_occupied positive fits notDemand occupied]
      refine Iff.trans ?_ free
      cases place lookup a.wakeInterval a.wakeDuration.toUInt64
          ((s.remove key).entries a.wakeInterval) with
      | error error => simp
      | ok place => simp

/-- Where a new member has its place: first in its group, or in the first gap that holds it. -/
inductive Chosen (interval duration : UInt64) : List ServicePeriod → Place → Prop where
  | first : Chosen interval duration [] ⟨0, 0⟩
  | behind {periods : List ServicePeriod} {place : Place}
      (gap : FirstGap (comesRound interval periods) duration.toNat periods place) :
      Chosen interval duration periods place

/-- A successful scheduling among members in line chooses the first place. -/
theorem exists_chosen (notDemand : command ≠ .demand)
    (inLine : (s.remove key).InLine lookup a.wakeInterval)
    (exactSums : ∀ sum ∈ placeSums a.wakeInterval a.wakeDuration.toUInt64
      ((s.remove key).periods lookup a.wakeInterval), sum < UInt64.size)
    (scheduled : schedule key a command lookup s = (.ok granted, after)) :
    ∃ position,
      Chosen a.wakeInterval a.wakeDuration.toUInt64 ((s.remove key).periods lookup a.wakeInterval)
        ⟨position, granted.wakeTime⟩ ∧
      granted = { a with wakeTime := granted.wakeTime } ∧
      after = (s.remove key).put a.wakeInterval
        (((s.remove key).entries a.wakeInterval).take position ++
          key :: ((s.remove key).entries a.wakeInterval).drop position) := by
  obtain ⟨nonzero, fits, position, wakeTime, placed, rfl, rfl⟩ := schedule_ok scheduled
  refine ⟨position, ?_, rfl, rfl⟩
  have found := inLine.found
  generalize (s.remove key).entries a.wakeInterval = members at placed found
  cases placed with
  | first =>
      rw [List.map_eq_nil_iff.mp found.symm]
      exact .first
  | demanded demand => exact absurd demand notDemand
  | @fitted _ place fitted =>
      have occupied : (s.remove key).periods lookup a.wakeInterval ≠ [] := by
        intro nobody
        rw [nobody] at found
        obtain rfl := List.map_eq_nil_iff.mp found
        cases fitted
      exact .behind ((place_spec inLine.succession found occupied exactSums).1 place fitted)

/-- A new member in its place leaves the members in line, as they are looked up with it. -/
theorem InLine.insert {position : Nat} {wakeTime : UInt64}
    (inLine : s.InLine lookup a.wakeInterval) (absent : key ∉ s.entries a.wakeInterval)
    (lasts : a.wakeDuration ≠ 0) (fits : a.wakeDuration.toUInt64 ≤ a.wakeInterval)
    (chosen : Chosen a.wakeInterval a.wakeDuration.toUInt64 (s.periods lookup a.wakeInterval)
      ⟨position, wakeTime⟩) :
    (s.put a.wakeInterval ((s.entries a.wakeInterval).take position ++
        key :: (s.entries a.wakeInterval).drop position)).InLine
      (Function.update lookup key (some (.ofAgreement { a with wakeTime }))) a.wakeInterval := by
  have found : (s.entries a.wakeInterval).map
      (Function.update lookup key (some (.ofAgreement { a with wakeTime }))) =
        (s.periods lookup a.wakeInterval).map some := by
    rw [← inLine.found]
    refine List.map_congr_left fun member held => Function.update_of_ne ?_ _ _
    rintro rfl
    exact absent held
  have grown := map_lookup_insert found (Function.update_self key _ _) position
  refine InLine.of_found _ (by rw [entries_put, if_pos rfl]; exact grown) ?_
  have lasting : (ServicePeriod.ofAgreement { a with wakeTime }).duration ≠ 0 :=
    fun zero => lasts (UInt32.toNat_inj.mp (congrArg UInt64.toNat zero))
  have succession := inLine.succession
  generalize s.periods lookup a.wakeInterval = periods at chosen succession
  cases chosen with
  | first =>
      exact Succession.singleton rfl lasting (UInt64.le_iff_toNat_le.mp fits)
  | behind gap =>
      obtain ⟨earlier, before, later, rfl, rfl, wakes, holds⟩ := gap.split
      rw [insert_behind]
      exact succession.insert rfl lasting wakes holds

/-- First fit is sound and complete. Among members in line an agreement that lasts is scheduled exactly
if it fits its interval and can start somewhere without an overlap. Then it gets the first place,
which is the end of the period in front of the first gap that holds it, and the members are in line
again and overlap nowhere. Members in line stay so when any of them are removed. -/
theorem firstFit_sound_complete (built : s.Built) (positive : a.wakeInterval ≠ 0)
    (lasts : a.wakeDuration ≠ 0) (notDemand : command ≠ .demand)
    (inLine : (s.remove key).InLine lookup a.wakeInterval)
    (exactSums : ∀ sum ∈ placeSums a.wakeInterval a.wakeDuration.toUInt64
      ((s.remove key).periods lookup a.wakeInterval), sum < UInt64.size) :
    ((∃ granted, (schedule key a command lookup s).1 = .ok granted) ↔
      a.wakeDuration.toUInt64 ≤ a.wakeInterval ∧
        ∃ start < a.wakeInterval, ∀ p ∈ (s.remove key).periods lookup a.wakeInterval,
          ¬ (ServicePeriod.ofAgreement { a with wakeTime := start }).Overlaps p) ∧
    (∀ granted after, schedule key a command lookup s = (.ok granted, after) →
      ∃ position,
        Chosen a.wakeInterval a.wakeDuration.toUInt64
          ((s.remove key).periods lookup a.wakeInterval) ⟨position, granted.wakeTime⟩ ∧
        granted = { a with wakeTime := granted.wakeTime } ∧
        after.entries a.wakeInterval = ((s.remove key).entries a.wakeInterval).take position ++
          key :: ((s.remove key).entries a.wakeInterval).drop position ∧
        after.InLine (Function.update lookup key (some (.ofAgreement granted))) a.wakeInterval ∧
        (after.periods (Function.update lookup key (some (.ofAgreement granted)))
          a.wakeInterval).Pairwise fun p q => ¬ p.Overlaps q) ∧
    ∀ known interval gone, s.InLine known interval → (s.remove gone).InLine known interval := by
  refine ⟨exists_granted_iff positive lasts notDemand inLine exactSums, fun granted after scheduled => ?_,
    fun known interval gone => InLine.remove built.wellFormed⟩
  obtain ⟨position, chosen, granting, rfl⟩ := exists_chosen notDemand inLine exactSums scheduled
  have fits := (schedule_ok scheduled).2.1
  have absent : key ∉ (s.remove key).entries a.wakeInterval := fun held =>
    ((mem_entries_remove built.wellFormed).mp held).2 rfl
  have again := inLine.insert absent lasts fits chosen
  rw [← granting] at again
  exact ⟨position, chosen, granting, by rw [entries_put, if_pos rfl], again,
    again.succession.pairwise_not_overlaps⟩

/-- An agreement of an interval of 100 ms. -/
def everyHundred (wakeTime : UInt64) (duration : UInt32) : Agreement :=
  { Agreement.zero with wakeTime, wakeInterval := 100000, wakeDuration := duration }

/-- Flows 0 and 1 of a station, the second one demanded. -/
def twoMembers : Schedule :=
  (schedule ⟨.zero, 1⟩ (everyHundred 230000 15000) .demand (fun _ => none)
    (schedule ⟨.zero, 0⟩ (everyHundred 0 20000) .request (fun _ => none) .empty).2).2

/-- Periods of the two flows in the second and third turn, where the offset goes round. -/
def wrapping (key : AgreementKey) : Option ServicePeriod :=
  if key.flow = 0 then some ⟨150000, 100000, 20000⟩ else some ⟨230000, 100000, 15000⟩

theorem firstFit_sound_complete_wrapping :
    (∃ granted, (schedule ⟨.zero, 2⟩ (everyHundred 0 30000) .request wrapping twoMembers).1 =
      .ok granted) ↔
    (everyHundred 0 30000).wakeDuration.toUInt64 ≤ (everyHundred 0 30000).wakeInterval ∧
      ∃ start < (everyHundred 0 30000).wakeInterval,
        ∀ p ∈ (twoMembers.remove ⟨.zero, 2⟩).periods wrapping (everyHundred 0 30000).wakeInterval,
          ¬ (ServicePeriod.ofAgreement { everyHundred 0 30000 with wakeTime := start }).Overlaps p := by
  have inLine : (twoMembers.remove ⟨.zero, 2⟩).InLine wrapping
      (everyHundred 0 30000).wakeInterval :=
    .of_found [⟨150000, 100000, 20000⟩, ⟨230000, 100000, 15000⟩] (by decide +kernel)
      { shared := by decide +kernel
        lasting := by decide +kernel
        follow := ⟨by decide +kernel, by decide +kernel, trivial⟩ }
  exact (firstFit_sound_complete (.scheduled _ _ _ _ (.scheduled _ _ _ _ .empty)) (by decide)
    (by decide) (by decide) inLine (by decide +kernel)).1

end TargetWakeTime.Schedule
