import TargetWakeTime.Proofs.Schedule.FirstFit

/-!
Contract: what a failed scheduling leaves behind.

Owns:
- that the caller is left with the agreement that it came with;
- that removing a key changes a schedule exactly if the key is scheduled;
- that a failed scheduling leaves the schedule as it was exactly if the key was not scheduled, or if
  the agreement is unfit for any schedule; in all other cases the key is gone and nothing else is.

An unfit agreement is refused before anything moves. For any other one the key has to leave its group
before a gap is looked for, since its own period must not be in the way, and it does not come back.
-/

namespace TargetWakeTime.Schedule

variable {s after : Schedule} {key : AgreementKey} {a : Agreement} {command : SetupCommand}
  {lookup : AgreementKey → Option ServicePeriod} {error : Error}

private theorem removeFrom_eq_self_iff {folders : List Folder} :
    removeFrom key folders = folders ↔ folders.any (·.group.entries.contains key) = false := by
  induction folders with
  | nil => simp [removeFrom]
  | cons folder rest inductionHypothesis =>
      by_cases here : key ∈ folder.group.entries
      · -- The group goes, or it is kept without the key.
        simp only [removeFrom, here, if_true, List.any_cons, Bool.true_or,
          List.contains_eq_mem, decide_true, Bool.true_eq_false, iff_false]
        split
        · exact fun same => List.cons_ne_self folder rest same.symm
        · intro same
          have sameEntries := congrArg (·.group.entries) (List.cons.inj same).1
          rw [← sameEntries] at here
          simp [Folder.withEntries] at here
      · simp [removeFrom, here, inductionHypothesis]

/-- Removing a key is noticed exactly if the key is scheduled. -/
theorem remove_eq_self_iff : s.remove key = s ↔ s.contains key = false := by
  obtain ⟨folders⟩ := s
  rw [remove, mk.injEq, contains, groups, List.any_map]
  exact removeFrom_eq_self_iff

/-- A failed scheduling leaves the caller its agreement. It leaves the schedule as it was exactly if
the agreement is unfit or its key was not scheduled; otherwise the key is gone, and all other members
of all groups are what they were, in the same order. -/
theorem unchanged_iff_unfit_or_unscheduled (built : s.Built)
    (failed : schedule key a command lookup s = (.error error, after)) :
    (s.assign key a command lookup).2.1 = a ∧
      (after = s ↔ Unfit a ∨ s.contains key = false) ∧
      (after ≠ s → ∀ interval, after.entries interval = (s.entries interval).filter (· ≠ key)) := by
  refine ⟨by rw [assign_of_schedule_error failed], ?_⟩
  cases refused failed with
  | unfit unfit => exact ⟨iff_of_true rfl (.inl unfit), fun changed => absurd rfl changed⟩
  | crowded fit =>
      refine ⟨?_, fun _ interval => entries_remove built.wellFormed⟩
      rw [remove_eq_self_iff, or_iff_right fit]

/-- Flows 0 and 1 of a station fill an interval of 100 ms. -/
def fullInterval : Schedule :=
  (schedule ⟨.zero, 1⟩ (everyHundred 0 40000) .request
      (fun _ => some (.ofAgreement (everyHundred 0 60000)))
    (schedule ⟨.zero, 0⟩ (everyHundred 0 60000) .request (fun _ => none) .empty).2).2

/-- The periods of the two flows. -/
def fullPeriods (key : AgreementKey) : Option ServicePeriod :=
  if key.flow = 0 then some (.ofAgreement (everyHundred 0 60000))
  else some (.ofAgreement (everyHundred 60000 40000))

theorem built_fullInterval : fullInterval.Built :=
  .scheduled _ _ _ _ (.scheduled _ _ _ _ .empty)

/-- A third flow finds no place, and the schedule does not notice. -/
theorem unchanged_iff_unfit_or_unscheduled_thirdFlow :
    let result := schedule ⟨.zero, 2⟩ (everyHundred 0 20000) .request fullPeriods fullInterval
    result.1 = .error .noSlotAvailable ∧ result.2 = fullInterval := by
  intro result
  have failed : result = (.error .noSlotAvailable, result.2) := Prod.ext (by rfl) rfl
  have fresh : fullInterval.contains ⟨.zero, 2⟩ = false := by decide +kernel
  exact ⟨congrArg Prod.fst failed,
    (unchanged_iff_unfit_or_unscheduled built_fullInterval failed).2.1.mpr (.inr fresh)⟩

/-- The second flow asks for more than there is room for, and loses the place that it had. -/
theorem not_unchanged_rescheduled :
    let result := schedule ⟨.zero, 1⟩ (everyHundred 0 50000) .request fullPeriods fullInterval
    fullInterval.Built ∧ result.1 = .error .noSlotAvailable ∧ result.2 ≠ fullInterval ∧
      fullInterval.entries 100000 = [⟨.zero, 0⟩, ⟨.zero, 1⟩] ∧
      result.2.entries 100000 = [⟨.zero, 0⟩] :=
  ⟨built_fullInterval, by rfl, by decide +kernel, by decide +kernel, by decide +kernel⟩

end TargetWakeTime.Schedule
