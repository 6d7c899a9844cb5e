import TargetWakeTime.Proofs.Schedule.FirstFit

/-!
Contract: what scheduling computes in words.

Owns:
- all sums that scheduling forms, whatever comes of it;
- where a wake time that scheduling gives comes from;
- a bound on the members' periods under which every sum stays below a limit.

Nothing is assumed about how the members' periods lie to one another.
-/

namespace TargetWakeTime

namespace ServicePeriod

theorem offset_le_wakeTime (p : ServicePeriod) : p.offset.toNat ≤ p.wakeTime.toNat := by
  rw [offset, UInt64.toNat_mod]
  exact Nat.mod_le ..

/-- A sum of two words is at most what it should be. -/
theorem toNat_finish_le (p : ServicePeriod) : p.finish.toNat ≤ p.ends := by
  rw [finish, UInt64.toNat_add]
  exact Nat.mod_le ..

/-- An offset that has gone round is at most one interval further on. -/
theorem toNat_turned_le (p : ServicePeriod) (interval : UInt64) (gone : Prop) [Decidable gone] :
    (if gone then p.offset + interval else p.offset).toNat ≤ p.offset.toNat + interval.toNat := by
  split
  · rw [UInt64.toNat_add]
    exact Nat.mod_le ..
  · exact Nat.le_add_right ..

end ServicePeriod

namespace Schedule

/-- The sums that scheduling an agreement forms, not reduced to words. An agreement that is refused
at once or demanded has none, and so has the first member of a group. -/
def sums (key : AgreementKey) (a : Agreement) (command : SetupCommand)
    (lookup : AgreementKey → Option ServicePeriod) (s : Schedule) : List Nat :=
  if a.wakeInterval = 0 ∨ a.wakeInterval < a.wakeDuration.toUInt64 ∨ command = .demand then []
  else
    match resolve lookup ((s.remove key).entries a.wakeInterval) with
    | .error _ => []
    | .ok periods => placeSums a.wakeInterval a.wakeDuration.toUInt64 periods

variable {lookup : AgreementKey → Option ServicePeriod} {keys : List AgreementKey}
  {interval duration first : UInt64} {periods : List ServicePeriod} {p : ServicePeriod}
  {limit : Nat}

/-- Every period of some members is that of one of them. -/
theorem exists_lookup_of_resolve (resolved : resolve lookup keys = .ok periods)
    (member : p ∈ periods) : ∃ key, lookup key = some p := by
  have looked : some p ∈ keys.map lookup :=
    map_lookup_of_resolve resolved ▸ List.mem_map_of_mem member
  obtain ⟨key, -, holds⟩ := List.mem_map.mp looked
  exact ⟨key, holds⟩

/-- A wake time that is not demanded is zero, or the end of a member's period. -/
theorem wakeTime_of_placed {a : Agreement} {command : SetupCommand} {position : Nat}
    {wakeTime : UInt64} (placed : Placed lookup a command keys position wakeTime)
    (notDemand : command ≠ .demand) :
    wakeTime = 0 ∨ ∃ key p, lookup key = some p ∧ wakeTime = p.finish := by
  cases placed with
  | first => exact .inl rfl
  | demanded demand => exact absurd demand notDemand
  | @fitted _ place fitted =>
      unfold Schedule.place at fitted
      split at fitted
      · cases fitted
      · cases fitted
      case h_3 first rest resolved =>
        split at fitted
        · cases fitted
        case h_2 found =>
          cases fitted
          obtain ⟨earlier, before, later, parts, rfl, -⟩ := firstFit_eq_some found
          have member : before ∈ first :: rest := by simp [parts]
          obtain ⟨key, holds⟩ := exists_lookup_of_resolve resolved member
          exact .inr ⟨key, before, holds, rfl⟩

/-! ### Sums that stay below a limit -/

/-- First fit adds to the end of a period at most the interval and the new duration. -/
theorem lt_of_mem_firstFitSums (firstNear : first.toNat + interval.toNat < limit)
    (near : ∀ p ∈ periods, p.ends + interval.toNat + duration.toNat < limit) :
    ∀ sum ∈ firstFitSums interval duration first periods, sum < limit := by
  induction periods with
  | nil => simp [firstFitSums]
  | cons current rest inductionHypothesis =>
      have currentNear := near current List.mem_cons_self
      have inside := current.offset_le_wakeTime
      have ends : current.ends = current.wakeTime.toNat + current.duration.toNat := rfl
      cases rest with
      | nil =>
          have turned := current.toNat_turned_le interval (current.offset < first)
          simp only [firstFitSums, List.forall_mem_append, List.forall_mem_cons]
          refine ⟨⟨?_, ?_, firstNear, by simp⟩, ?_⟩
          · split <;> omega
          · omega
          · split <;> simp <;> omega
      | cons next later =>
          have nextNear := near next (by simp)
          have nextInside := next.offset_le_wakeTime
          have nextEnds : next.ends = next.wakeTime.toNat + next.duration.toNat := rfl
          have behind := inductionHypothesis fun p member => near p (List.mem_cons_of_mem _ member)
          have sums : ∀ sum ∈ [if next.offset < current.offset then
                next.offset.toNat + interval.toNat else next.offset.toNat,
              current.offset.toNat + current.duration.toNat], sum < limit := by
            rw [List.forall_mem_cons, List.forall_mem_singleton]
            refine ⟨?_, by omega⟩
            split <;> omega
          by_cases room : duration.toNat ≤
              (if next.offset < current.offset then next.offset + interval
                else next.offset).toNat - current.offsetEnd.toNat
          · simp only [firstFitSums, if_pos room, List.forall_mem_append, List.forall_mem_singleton]
            exact ⟨sums, by omega⟩
          · simp only [firstFitSums, if_neg room, List.forall_mem_append]
            exact ⟨sums, behind⟩

/-- If all periods that can be looked up end early enough, no sum reaches the limit. -/
theorem lt_of_mem_sums {key : AgreementKey} {a : Agreement} {command : SetupCommand} {s : Schedule}
    (near : ∀ member p, lookup member = some p →
      p.ends + a.wakeInterval.toNat + a.wakeDuration.toNat < limit) :
    ∀ sum ∈ s.sums key a command lookup, sum < limit := by
  unfold sums
  split
  · simp
  · split
    · simp
    case h_2 periods resolved =>
      have allNear (p : ServicePeriod) (member : p ∈ periods) :
          p.ends + a.wakeInterval.toNat + a.wakeDuration.toUInt64.toNat < limit := by
        obtain ⟨owner, holds⟩ := exists_lookup_of_resolve resolved member
        exact near owner p holds
      cases periods with
      | nil => simp [placeSums]
      | cons first rest =>
          have firstNear := allNear first List.mem_cons_self
          have inside := first.offset_le_wakeTime
          have ends : first.ends = first.wakeTime.toNat + first.duration.toNat := rfl
          exact lt_of_mem_firstFitSums (by omega) allNear

end Schedule

end TargetWakeTime
