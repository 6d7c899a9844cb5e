import TargetWakeTime.Proofs.Schedule.Membership

/-!
Contract: the periods of the members of a wake interval, as they are looked up.

Owns:
- resolving members that all have a period, so that scheduling misses none of them;
- the periods that are left when members leave, and those of a group that gained a member.
-/

namespace TargetWakeTime.Schedule

/-- The periods of the members of an interval, in their order, as far as they have any. -/
def periods (lookup : AgreementKey → Option ServicePeriod) (interval : UInt64) (s : Schedule) :
    List ServicePeriod :=
  (s.entries interval).filterMap lookup

variable {lookup : AgreementKey → Option ServicePeriod} {keys : List AgreementKey}
  {periods : List ServicePeriod}

theorem map_lookup_of_resolve (resolved : resolve lookup keys = .ok periods) :
    keys.map lookup = periods.map some := by
  induction keys generalizing periods with
  | nil =>
      cases resolved
      rfl
  | cons key rest inductionHypothesis =>
      unfold resolve at resolved
      split at resolved
      · cases resolved
      case h_2 period found =>
        split at resolved
        · cases resolved
        case h_2 others restResolved =>
          cases resolved
          rw [List.map_cons, List.map_cons, found, inductionHypothesis restResolved]

/-- Members that all have a period are resolved. -/
theorem resolve_of_map_lookup (found : keys.map lookup = periods.map some) :
    resolve lookup keys = .ok periods := by
  induction keys generalizing periods with
  | nil =>
      obtain rfl := List.map_eq_nil_iff.mp found.symm
      rfl
  | cons key rest inductionHypothesis =>
      obtain ⟨period, others, rfl, holds, restHold⟩ := List.map_eq_cons_iff.mp found.symm
      simp only [resolve, ← holds, inductionHypothesis restHold.symm]

theorem filterMap_of_map_lookup (found : keys.map lookup = periods.map some) :
    keys.filterMap lookup = periods := by
  have mapped : (keys.map lookup).filterMap id = keys.filterMap lookup := by
    rw [List.filterMap_map]
    rfl
  rw [← mapped, found, List.filterMap_map]
  exact List.filterMap_some

theorem map_lookup_of_known (known : ∀ key ∈ keys, ∃ p, lookup key = some p) :
    keys.map lookup = (keys.filterMap lookup).map some := by
  induction keys with
  | nil => rfl
  | cons key rest inductionHypothesis =>
      obtain ⟨p, found⟩ := known key List.mem_cons_self
      have restKnown := inductionHypothesis fun other member =>
        known other (List.mem_cons_of_mem _ member)
      rw [List.map_cons, found, List.filterMap_cons_some found, List.map_cons, restKnown]

/-- Knowing less of fewer members leaves some of the periods. -/
theorem filterMap_sublist {known : AgreementKey → Option ServicePeriod}
    {fewer : List AgreementKey} (sublist : fewer.Sublist keys)
    (same : ∀ key p, known key = some p → lookup key = some p) :
    (fewer.filterMap known).Sublist (keys.filterMap lookup) := by
  refine List.Sublist.trans ?_ (sublist.filterMap lookup)
  clear sublist
  induction fewer with
  | nil => exact List.Sublist.refl _
  | cons key rest inductionHypothesis =>
      cases found : known key with
      | none =>
          rw [List.filterMap_cons_none found]
          cases looked : lookup key with
          | none => rwa [List.filterMap_cons_none looked]
          | some p =>
              rw [List.filterMap_cons_some looked]
              exact inductionHypothesis.cons p
      | some p =>
          rw [List.filterMap_cons_some found, List.filterMap_cons_some (same key p found)]
          exact inductionHypothesis.cons_cons p

theorem map_lookup_insert {key : AgreementKey} {q : ServicePeriod}
    (found : keys.map lookup = periods.map some) (holds : lookup key = some q) (position : Nat) :
    (keys.take position ++ key :: keys.drop position).map lookup =
      (periods.take position ++ q :: periods.drop position).map some := by
  rw [List.map_append, List.map_cons, List.map_take, List.map_drop, found, holds, List.map_append,
    List.map_cons, List.map_take, List.map_drop]

theorem filterMap_insert {key : AgreementKey} {q : ServicePeriod}
    (found : keys.map lookup = periods.map some) (holds : lookup key = some q) (position : Nat) :
    (keys.take position ++ key :: keys.drop position).filterMap lookup =
      periods.take position ++ q :: periods.drop position :=
  filterMap_of_map_lookup (map_lookup_insert found holds position)

/-- Scheduling misses no member if all members of the interval have periods. -/
theorem schedule_ne_unresolved {s : Schedule} {key missing : AgreementKey} {a : Agreement}
    {command : SetupCommand}
    (known : ∀ member ∈ (s.remove key).entries a.wakeInterval, ∃ p, lookup member = some p) :
    (schedule key a command lookup s).1 ≠ .error (.invalidParameter (.unresolvedKey missing)) := by
  have resolved := resolve_of_map_lookup (map_lookup_of_known known)
  unfold schedule assign place
  dsimp only
  rw [resolved]
  intro missed
  split at missed
  · cases missed
  · split at missed
    · cases missed
    · split at missed
      · cases missed
      · split at missed
        · cases missed
        case isFalse =>
          generalize ((s.remove key).entries a.wakeInterval).filterMap lookup = found at missed
          cases found with
          | nil => cases missed
          | cons first rest =>
              dsimp only at missed
              generalize firstFit _ _ _ _ = fitted at missed
              cases fitted <;> cases missed

end TargetWakeTime.Schedule
