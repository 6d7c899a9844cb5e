import Mathlib.Data.List.Nodup
import TargetWakeTime.Proofs.Runs
import TargetWakeTime.Proofs.Schedule.Membership

/-!
Contract: how a schedule files its keys, whatever is done to it.

Owns:
- the operations on a schedule and runs of them;
- filed schedules: no group is empty, every group is filed under the interval that it knows of, only one
  under each, and no key is filed twice, in one group or in two;
- what a successful scheduling does: its key is filed under the interval of its agreement and nowhere
  else, and all other keys of every group keep their order.

That a schedule is well-formed is kept by each operation. What is said here follows from it.
-/

namespace TargetWakeTime.Schedule

variable {s after : Schedule} {key : AgreementKey} {a granted : Agreement} {command : SetupCommand}
  {lookup : AgreementKey → Option ServicePeriod}

inductive Operation where
  | schedule (key : AgreementKey) (a : Agreement) (command : SetupCommand)
      (lookup : AgreementKey → Option ServicePeriod)
  | remove (key : AgreementKey)
  | clear

/-- What an operation leaves of a schedule, whether it succeeds or fails. -/
def act (s : Schedule) : Operation → Schedule
  | .schedule key a command lookup => (schedule key a command lookup s).2
  | .remove key => s.remove key
  | .clear => .empty

theorem built_act (built : s.Built) (operation : Operation) : (act s operation).Built := by
  cases operation with
  | schedule key a command lookup => exact .scheduled key a command lookup built
  | remove key => exact .removed key built
  | clear => exact .empty

/-- Every key is filed once, and every group, none of which is empty, under its own interval. -/
structure Filed (s : Schedule) : Prop where
  occupied : ∀ group ∈ s.groups, group.entries ≠ []
  /-- The interval that a group is filed under is the one that it knows of. -/
  own : ∀ folder ∈ s.folders, folder.group.interval = folder.label
  /-- What is found under an interval is what is filed there. -/
  found : ∀ interval group, s.group? interval = some group ↔ ⟨interval, group⟩ ∈ s.folders
  once : (s.groups.flatMap (·.entries)).Nodup

/-- A key gets its place under one interval and under no other one, and all other keys of all groups
stay where they are, in the same order. -/
structure Places (key : AgreementKey) (interval : UInt64) (before after : Schedule) : Prop where
  only : ∀ other, key ∈ after.entries other ↔ other = interval
  order : ∀ other,
    (after.entries other).filter (· ≠ key) = (before.entries other).filter (· ≠ key)

theorem WellFormed.nodup_labels (wellFormed : s.WellFormed) :
    (s.folders.map (·.label)).Nodup :=
  wellFormed.ascending.imp UInt64.ne_of_lt

theorem group?_eq_some_iff (wellFormed : s.WellFormed) {interval : UInt64} {group : Group} :
    s.group? interval = some group ↔ ⟨interval, group⟩ ∈ s.folders := by
  unfold group?
  constructor
  · intro found
    obtain ⟨folder, first, rfl⟩ := Option.map_eq_some_iff.mp found
    have label : folder.label = interval := by simpa using List.find?_some first
    exact label ▸ List.mem_of_find?_eq_some first
  · intro member
    cases found : s.folders.find? (·.label == interval) with
    | none =>
        have absent := List.find?_eq_none.mp found _ member
        simp at absent
    | some folder =>
        have label : folder.label = interval := by simpa using List.find?_some found
        have same := List.inj_on_of_nodup_map wellFormed.nodup_labels
          (List.mem_of_find?_eq_some found) member label
        rw [same, Option.map_some]

theorem nodup_flatMap_entries (wellFormed : s.WellFormed) :
    (s.groups.flatMap (·.entries)).Nodup := by
  have read {folder : Folder} (member : folder ∈ s.folders) :
      s.entries folder.label = folder.group.entries := entries_label wellFormed.ascending member
  rw [groups, List.flatMap_map, List.nodup_flatMap]
  constructor
  · intro folder member
    exact read member ▸ wellFormed.nodup folder.label
  · refine (List.pairwise_map.mp wellFormed.ascending).imp_of_mem ?_
    intro first second inFirst inSecond below key heldFirst heldSecond
    have same := wellFormed.single key first.label second.label (read inFirst ▸ heldFirst)
      (read inSecond ▸ heldSecond)
    exact UInt64.lt_irrefl _ (same ▸ below)

theorem filed_of_wellFormed (wellFormed : s.WellFormed) : s.Filed where
  occupied := wellFormed.occupied
  own := wellFormed.own
  found _ _ := group?_eq_some_iff wellFormed
  once := nodup_flatMap_entries wellFormed

/-- Where a key is put in, it is the only one that is new. -/
theorem filter_put_in (members : List AgreementKey) (position : Nat) :
    (members.take position ++ key :: members.drop position).filter (· ≠ key) =
      members.filter (· ≠ key) := by
  have passed : (key :: members.drop position).filter (· ≠ key) =
      (members.drop position).filter (· ≠ key) := List.filter_cons_of_neg (by simp)
  rw [List.filter_append, passed, ← List.filter_append, List.take_append_drop]

theorem places_of_scheduled (wellFormed : s.WellFormed)
    (scheduled : schedule key a command lookup s = (.ok granted, after)) :
    Places key a.wakeInterval s after where
  only other := by rw [mem_entries_schedule wellFormed scheduled, if_pos rfl]
  order other := by
    obtain ⟨-, -, position, wakeTime, -, -, rfl⟩ := schedule_ok scheduled
    have removed : ((s.remove key).entries other).filter (· ≠ key) =
        (s.entries other).filter (· ≠ key) := by
      rw [entries_remove wellFormed, List.filter_filter]
      simp
    rw [entries_put]
    split
    case isTrue same =>
      obtain rfl : other = a.wakeInterval := same
      rw [filter_put_in, removed]
    case isFalse => exact removed

/-- Whatever is done to a schedule, its keys are filed, and a scheduling that succeeds files its key under
the interval of its agreement and moves no other one. -/
theorem filed_reached (operations : List Operation) :
    ∀ s ∈ Runs.reached act .empty operations, s.Filed ∧
      ∀ key a command lookup granted after,
        schedule key a command lookup s = (.ok granted, after) →
          Places key a.wakeInterval s after := by
  intro s member
  have built : s.Built :=
    Runs.invariant_of_steps Built (fun _ operation built (_ : True) => built_act built operation)
      .empty (fun _ _ => trivial) s member
  exact ⟨filed_of_wellFormed built.wellFormed,
    fun _ _ _ _ _ _ scheduled => places_of_scheduled built.wellFormed scheduled⟩

/-- The second of three flows in one group moves to a group of its own. -/
theorem filed_reached_regrouped :
    let slow : Agreement := { Agreement.zero with wakeInterval := 100000, wakeDuration := 20000 }
    let quick : Agreement := { slow with wakeInterval := 50000 }
    let nowhere : AgreementKey → Option ServicePeriod := fun _ => none
    let s := [.schedule ⟨.zero, 0⟩ slow .request nowhere, .schedule ⟨.zero, 1⟩ slow .demand nowhere,
      .schedule ⟨.zero, 2⟩ slow .demand nowhere].foldl act .empty
    let after := (schedule ⟨.zero, 1⟩ quick .request nowhere s).2
    s.Filed ∧ Places ⟨.zero, 1⟩ 50000 s after ∧
      s.entries 100000 = [⟨.zero, 0⟩, ⟨.zero, 1⟩, ⟨.zero, 2⟩] ∧
      after.entries 100000 = [⟨.zero, 0⟩, ⟨.zero, 2⟩] ∧ after.entries 50000 = [⟨.zero, 1⟩] := by
  intro slow quick nowhere s after
  have filed := filed_reached _ s (Runs.foldl_mem_reached _ _)
  have scheduled : schedule ⟨.zero, 1⟩ quick .request nowhere s = (.ok quick, after) :=
    Prod.ext (by decide +kernel) rfl
  exact ⟨filed.1, filed.2 _ _ _ _ _ _ scheduled, by decide +kernel, by decide +kernel,
    by decide +kernel⟩

end TargetWakeTime.Schedule
