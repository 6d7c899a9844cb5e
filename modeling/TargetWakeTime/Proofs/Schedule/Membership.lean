import TargetWakeTime.Schedule
import Mathlib.Tactic.Tauto

/-!
Contract: which keys are members of which wake interval, whatever happens to a schedule.

Owns:
- well-formed schedules: groups in strictly ascending order of the interval that they are filed under,
  which is their own one, none empty, and no key twice, neither in a group nor in two;
- the members of an interval after one key or several were removed, a group put, or an agreement
  scheduled;
- preservation of well-formedness by all of them, so that every schedule that can be built has it.

The view of a schedule is `entries`, the members of each interval in order.
-/

namespace TargetWakeTime.Schedule

variable {s : Schedule} {key other : AgreementKey} {interval : UInt64}

structure WellFormed (s : Schedule) : Prop where
  ascending : (s.folders.map (·.label)).Pairwise (· < ·)
  own : ∀ folder ∈ s.folders, folder.group.interval = folder.label
  occupied : ∀ group ∈ s.groups, group.entries ≠ []
  nodup : ∀ interval, (s.entries interval).Nodup
  single : ∀ key first second,
    key ∈ s.entries first → key ∈ s.entries second → first = second

theorem wellFormed_empty : WellFormed {} where
  ascending := List.Pairwise.nil
  own _ none := by cases none
  occupied _ none := by cases none
  nodup _ := List.nodup_nil
  single _ _ _ none := by cases none

/-! ### Reading members -/

theorem entries_cons {folder : Folder} {rest : List Folder} :
    entries interval ⟨folder :: rest⟩ =
      if folder.label = interval then folder.group.entries else entries interval ⟨rest⟩ := by
  by_cases same : folder.label = interval
  · simp [entries, group?, same]
  · have passed : (folder.label == interval) = false := by simpa using same
    simp [entries, group?, same, passed]

theorem entries_eq_nil {folders : List Folder}
    (absent : ∀ folder ∈ folders, folder.label ≠ interval) : entries interval ⟨folders⟩ = [] := by
  have none : folders.find? (·.label == interval) = none := by simpa using absent
  simp [entries, group?, none]

/-- What is filed first under an interval is what is found there. -/
theorem entries_label {folder : Folder}
    (ascending : (s.folders.map (·.label)).Pairwise (· < ·)) (member : folder ∈ s.folders) :
    s.entries folder.label = folder.group.entries := by
  obtain ⟨folders⟩ := s
  induction folders with
  | nil => cases member
  | cons first rest inductionHypothesis =>
      simp only [List.map_cons, List.pairwise_cons] at ascending
      rw [entries_cons]
      rcases List.mem_cons.mp member with rfl | later
      · rw [if_pos rfl]
      · have below : first.label < folder.label :=
          ascending.1 _ (List.mem_map_of_mem later)
        have apart : first.label ≠ folder.label := by
          rintro equal
          exact (UInt64.lt_irrefl _) (equal ▸ below)
        rw [if_neg apart]
        exact inductionHypothesis ascending.2 later

theorem entries_of_mem {group : Group} (wellFormed : s.WellFormed) (member : group ∈ s.groups) :
    s.entries group.interval = group.entries := by
  obtain ⟨folder, filed, rfl⟩ := List.mem_map.mp member
  rw [wellFormed.own folder filed]
  exact entries_label wellFormed.ascending filed

theorem exists_folder_of_mem_entries (member : key ∈ s.entries interval) :
    ∃ folder ∈ s.folders, folder.label = interval ∧
      folder.group.entries = s.entries interval := by
  unfold entries group? at member ⊢
  cases found : s.folders.find? (·.label == interval) with
  | none => simp [found] at member
  | some folder =>
      have matching : folder.label = interval := by simpa using List.find?_some found
      exact ⟨folder, List.mem_of_find?_eq_some found, matching, rfl⟩

theorem exists_group_of_mem_entries (wellFormed : s.WellFormed)
    (member : key ∈ s.entries interval) :
    ∃ group ∈ s.groups, group.interval = interval ∧ group.entries = s.entries interval := by
  obtain ⟨folder, filed, sameLabel, sameEntries⟩ := exists_folder_of_mem_entries member
  exact ⟨folder.group, List.mem_map_of_mem filed, (wellFormed.own folder filed).trans sameLabel,
    sameEntries⟩

/-- A key is scheduled if it is a member of some interval. -/
theorem contains_iff (wellFormed : s.WellFormed) :
    s.contains key = true ↔ ∃ interval, key ∈ s.entries interval := by
  simp only [contains, List.any_eq_true, List.contains_iff_mem]
  constructor
  · rintro ⟨group, member, held⟩
    exact ⟨group.interval, by rwa [entries_of_mem wellFormed member]⟩
  · rintro ⟨interval, held⟩
    obtain ⟨group, member, -, sameEntries⟩ := exists_group_of_mem_entries wellFormed held
    exact ⟨group, member, by rwa [sameEntries]⟩

/-! ### Removing a key -/

private theorem filter_ne_eq_self {members : List AgreementKey} (absent : key ∉ members) :
    members.filter (· ≠ key) = members := by
  rw [List.filter_eq_self]
  intro member held
  have apart : member ≠ key := by
    rintro rfl
    exact absent held
  simpa using apart

private theorem entries_tail_eq_nil {folder : Folder} {rest : List Folder}
    (ascending : ((folder :: rest).map (·.label)).Pairwise (· < ·)) :
    entries folder.label ⟨rest⟩ = [] := by
  simp only [List.map_cons, List.pairwise_cons] at ascending
  apply entries_eq_nil
  rintro later member equal
  have below := ascending.1 _ (List.mem_map_of_mem member)
  exact UInt64.lt_irrefl _ (equal ▸ below)

private theorem entries_removeFrom {folders : List Folder}
    (ascending : (folders.map (·.label)).Pairwise (· < ·))
    (single : ∀ first second, key ∈ entries first ⟨folders⟩ → key ∈ entries second ⟨folders⟩ →
      first = second) :
    entries interval ⟨removeFrom key folders⟩ =
      (entries interval ⟨folders⟩).filter (· ≠ key) := by
  induction folders with
  | nil => rfl
  -- Only the group that holds the key is searched: no later one has it, by `single`.
  | cons folder rest inductionHypothesis =>
      have tailEmpty := entries_tail_eq_nil ascending
      by_cases here : key ∈ folder.group.entries
      · have heldHere : key ∈ entries folder.label ⟨folder :: rest⟩ := by
          rwa [entries_cons, if_pos rfl]
        simp only [removeFrom, List.contains_iff_mem, here, if_true]
        by_cases same : folder.label = interval
        · subst same
          split
          case isTrue emptied =>
            rw [tailEmpty, entries_cons, if_pos rfl]
            exact (List.isEmpty_iff.mp emptied).symm
          case isFalse =>
            rw [entries_cons, entries_cons, if_pos (label_withEntries ..), if_pos rfl]
            rfl
        · have notThere : key ∉ entries interval ⟨rest⟩ := by
            intro there
            refine same (single _ _ heldHere ?_)
            rwa [entries_cons, if_neg same]
          rw [entries_cons, if_neg same, filter_ne_eq_self notThere]
          split
          case isTrue => rfl
          case isFalse => rw [entries_cons, if_neg (label_withEntries .. ▸ same)]
      · simp only [removeFrom, List.contains_iff_mem, here, if_false]
        by_cases same : folder.label = interval
        · subst same
          rw [entries_cons, entries_cons, if_pos rfl, if_pos rfl, filter_ne_eq_self here]
        · rw [entries_cons, entries_cons, if_neg same, if_neg same]
          have reading : ∀ i, key ∈ entries i ⟨rest⟩ → key ∈ entries i ⟨folder :: rest⟩ := by
            intro i held
            rw [entries_cons]
            split
            case isTrue first =>
              rw [← first, tailEmpty] at held
              cases held
            case isFalse => exact held
          exact inductionHypothesis (List.pairwise_cons.mp ascending).2
            fun first second heldFirst heldSecond =>
              single first second (reading first heldFirst) (reading second heldSecond)

theorem entries_remove (wellFormed : s.WellFormed) :
    (s.remove key).entries interval = (s.entries interval).filter (· ≠ key) :=
  entries_removeFrom wellFormed.ascending (wellFormed.single key)

theorem mem_entries_remove (wellFormed : s.WellFormed) :
    other ∈ (s.remove key).entries interval ↔ other ∈ s.entries interval ∧ other ≠ key := by
  simp [entries_remove wellFormed]

private theorem labels_removeFrom_sublist {folders : List Folder} :
    ((removeFrom key folders).map (·.label)).Sublist (folders.map (·.label)) := by
  induction folders with
  | nil => exact List.Sublist.refl _
  | cons folder rest inductionHypothesis =>
      unfold removeFrom
      split
      · dsimp only
        split
        · exact List.sublist_cons_self ..
        · exact List.Sublist.refl _
      · exact inductionHypothesis.cons_cons _

/-- What is left is a group as it was, or one that lost a member and is not empty. -/
private theorem mem_removeFrom {folder : Folder} {folders : List Folder}
    (left : folder ∈ removeFrom key folders) :
    folder ∈ folders ∨
      ∃ old ∈ folders, ∃ entries, entries ≠ [] ∧ folder = old.withEntries entries := by
  induction folders with
  | nil => cases left
  | cons first rest inductionHypothesis =>
      unfold removeFrom at left
      split at left
      · dsimp only at left
        split at left
        · exact .inl (List.mem_cons_of_mem _ left)
        case isFalse some =>
          rcases List.mem_cons.mp left with shrunk | later
          · exact .inr ⟨first, List.mem_cons_self, _, by simpa using some, shrunk⟩
          · exact .inl (List.mem_cons_of_mem _ later)
      · rcases List.mem_cons.mp left with same | later
        · exact .inl (same ▸ List.mem_cons_self)
        · rcases inductionHypothesis later with old | ⟨old, member, shrunk⟩
          · exact .inl (List.mem_cons_of_mem _ old)
          · exact .inr ⟨old, List.mem_cons_of_mem _ member, shrunk⟩

theorem wellFormed_remove (wellFormed : s.WellFormed) : (s.remove key).WellFormed where
  ascending := wellFormed.ascending.sublist labels_removeFrom_sublist
  own folder left := by
    rcases mem_removeFrom left with old | ⟨old, member, _, -, rfl⟩
    · exact wellFormed.own folder old
    · exact wellFormed.own old member
  occupied group held := by
    obtain ⟨folder, left, rfl⟩ := List.mem_map.mp held
    rcases mem_removeFrom left with old | ⟨old, -, _, occupied, rfl⟩
    · exact wellFormed.occupied _ (List.mem_map_of_mem old)
    · exact occupied
  nodup interval := by
    rw [entries_remove wellFormed]
    exact (wellFormed.nodup interval).filter _
  single other first second heldFirst heldSecond :=
    wellFormed.single other first second
      ((mem_entries_remove wellFormed).mp heldFirst).1
      ((mem_entries_remove wellFormed).mp heldSecond).1

/-- A key that is no member is not missed. -/
theorem entries_remove_of_notMem (wellFormed : s.WellFormed) (absent : key ∉ s.entries interval) :
    (s.remove key).entries interval = s.entries interval := by
  rw [entries_remove wellFormed, filter_ne_eq_self absent]

/-! ### Removing several flows of one station -/

variable {peer : MacAddress} {flows : List UInt8}

theorem wellFormed_removeAll (wellFormed : s.WellFormed) :
    (flows.foldl (fun schedule flow => schedule.remove ⟨peer, flow⟩) s).WellFormed := by
  induction flows generalizing s with
  | nil => exact wellFormed
  | cons first rest inductionHypothesis =>
      exact inductionHypothesis (wellFormed_remove wellFormed)

theorem entries_removeAll (wellFormed : s.WellFormed) :
    (flows.foldl (fun schedule flow => schedule.remove ⟨peer, flow⟩) s).entries interval =
      (s.entries interval).filter fun key => flows.all fun flow => key ≠ ⟨peer, flow⟩ := by
  induction flows generalizing s with
  | nil => exact (List.filter_eq_self.mpr fun _ _ => rfl).symm
  | cons first rest inductionHypothesis =>
      rw [List.foldl_cons, inductionHypothesis (wellFormed_remove wellFormed),
        entries_remove wellFormed, List.filter_filter]
      simp only [List.all_cons, Bool.and_comm]

theorem mem_entries_removeAll (wellFormed : s.WellFormed) :
    key ∈ (flows.foldl (fun schedule flow => schedule.remove ⟨peer, flow⟩) s).entries interval ↔
      key ∈ s.entries interval ∧ ∀ flow ∈ flows, key ≠ ⟨peer, flow⟩ := by
  simp [entries_removeAll wellFormed]

/-! ### Putting a group -/

variable {members : List AgreementKey}

theorem entries_put {own : UInt64} :
    (s.put own members).entries interval =
      if interval = own then members else s.entries interval := by
  obtain ⟨folders⟩ := s
  simp only [put]
  induction folders with
  | nil =>
      rw [putInto, entries_cons]
      by_cases same : interval = own
      · rw [if_pos same.symm, if_pos same]
      · rw [if_neg (Ne.symm same), if_neg same]
  | cons first rest inductionHypothesis =>
      rw [putInto]
      split
      case isTrue equal =>
        simp only [entries_cons, equal, label_withEntries]
        by_cases same : interval = first.label
        · simp [same, Folder.withEntries]
        · simp [same, Ne.symm same]
      case isFalse differ =>
        split
        · rw [entries_cons]
          by_cases same : interval = own
          · simp [same]
          · simp [same, Ne.symm same]
        · rw [entries_cons, inductionHypothesis, entries_cons]
          by_cases same : interval = own
          · simp [same, Ne.symm differ]
          · simp [same]

/-- What is filed after these members were put is a group with them, opened or filed before under this
interval, or a group as it was. -/
private theorem mem_putInto {folder : Folder} {folders : List Folder}
    (held : folder ∈ putInto interval members folders) :
    folder = ⟨interval, ⟨interval, members⟩⟩ ∨
      (∃ old ∈ folders, interval = old.label ∧ folder = old.withEntries members) ∨
        folder ∈ folders := by
  induction folders with
  | nil => exact .inl (List.mem_singleton.mp held)
  | cons first rest inductionHypothesis =>
      rw [putInto] at held
      split at held
      case isTrue equal =>
        rcases List.mem_cons.mp held with filled | later
        · exact .inr (.inl ⟨first, List.mem_cons_self, equal, filled⟩)
        · exact .inr (.inr (List.mem_cons_of_mem _ later))
      case isFalse =>
        split at held
        · rcases List.mem_cons.mp held with opened | later
          · exact .inl opened
          · exact .inr (.inr later)
        · rcases List.mem_cons.mp held with same | later
          · exact .inr (.inr (same ▸ List.mem_cons_self))
          · rcases inductionHypothesis later with opened | ⟨old, member, filled⟩ | old
            · exact .inl opened
            · exact .inr (.inl ⟨old, List.mem_cons_of_mem _ member, filled⟩)
            · exact .inr (.inr (List.mem_cons_of_mem _ old))

private theorem label_of_mem_putInto {folder : Folder} {folders : List Folder}
    (held : folder ∈ putInto interval members folders) :
    folder.label = interval ∨ folder ∈ folders := by
  rcases mem_putInto held with rfl | ⟨old, -, equal, rfl⟩ | old
  · exact .inl rfl
  · exact .inl equal.symm
  · exact .inr old

private theorem ascending_putInto {folders : List Folder}
    (ascending : (folders.map (·.label)).Pairwise (· < ·)) :
    ((putInto interval members folders).map (·.label)).Pairwise (· < ·) := by
  induction folders with
  | nil => simp [putInto]
  | cons first rest inductionHypothesis =>
      have tail := (List.pairwise_cons.mp ascending).2
      have firstBelow : ∀ folder ∈ rest, first.label < folder.label := fun folder held =>
        (List.pairwise_cons.mp ascending).1 _ (List.mem_map_of_mem held)
      rw [putInto]
      split
      case isTrue => exact ascending
      case isFalse differ =>
        split
        case isTrue below =>
          refine List.pairwise_cons.mpr ⟨?_, ascending⟩
          intro value held
          obtain ⟨folder, folderHeld, rfl⟩ := List.mem_map.mp held
          rcases List.mem_cons.mp folderHeld with rfl | later
          · exact below
          · exact UInt64.lt_trans below (firstBelow folder later)
        case isFalse notBelow =>
          refine List.pairwise_cons.mpr ⟨?_, inductionHypothesis tail⟩
          intro value held
          obtain ⟨folder, folderHeld, rfl⟩ := List.mem_map.mp held
          rcases label_of_mem_putInto folderHeld with same | later
          · rw [same]
            exact UInt64.lt_of_le_of_ne (UInt64.not_lt.mp notBelow) (Ne.symm differ)
          · exact firstBelow folder later

theorem wellFormed_put (wellFormed : s.WellFormed) (occupied : members ≠ [])
    (nodup : members.Nodup)
    (single : ∀ key ∈ members, ∀ other, key ∈ s.entries other → other = interval) :
    (s.put interval members).WellFormed where
  ascending := ascending_putInto wellFormed.ascending
  own folder held := by
    rcases mem_putInto held with rfl | ⟨old, member, -, rfl⟩ | old
    · rfl
    · exact wellFormed.own old member
    · exact wellFormed.own folder old
  occupied group held := by
    obtain ⟨folder, filed, rfl⟩ := List.mem_map.mp held
    rcases mem_putInto filed with rfl | ⟨old, -, -, rfl⟩ | old
    · exact occupied
    · exact occupied
    · exact wellFormed.occupied _ (List.mem_map_of_mem old)
  nodup interval := by
    rw [entries_put]
    split
    · exact nodup
    · exact wellFormed.nodup interval
  single key first second heldFirst heldSecond := by
    rw [entries_put] at heldFirst heldSecond
    split at heldFirst <;> split at heldSecond
    case isTrue.isTrue sameFirst sameSecond => exact sameFirst.trans sameSecond.symm
    case isTrue.isFalse sameFirst _ => exact sameFirst.trans (single key heldFirst _ heldSecond).symm
    case isFalse.isTrue _ sameSecond => exact (single key heldSecond _ heldFirst).trans sameSecond.symm
    case isFalse.isFalse => exact wellFormed.single key first second heldFirst heldSecond

/-! ### Scheduling an agreement -/

variable {a granted : Agreement} {command : SetupCommand}
  {lookup : AgreementKey → Option ServicePeriod} {after : Schedule}

/-- The place of a new member: its wake time, and how many of the old members come before it. -/
inductive Placed (lookup : AgreementKey → Option ServicePeriod) (a : Agreement)
    (command : SetupCommand) : (members : List AgreementKey) → (position : Nat) →
    (wakeTime : UInt64) → Prop where
  | first : Placed lookup a command [] 0 0
  | demanded {members : List AgreementKey} (demand : command = .demand) :
      Placed lookup a command members members.length a.wakeTime
  | fitted {members : List AgreementKey} {found : Place}
      (fits : place lookup a.wakeInterval a.wakeDuration.toUInt64 members = .ok found) :
      Placed lookup a command members found.position found.wakeTime

theorem assign_of_schedule_ok (scheduled : schedule key a command lookup s = (.ok granted, after)) :
    s.assign key a command lookup = (.ok (), granted, after) := by
  unfold schedule at scheduled
  generalize s.assign key a command lookup = outcome at scheduled
  obtain ⟨error | ⟨⟩, left, moved⟩ := outcome
  · cases scheduled
  · cases scheduled
    rfl

/-- A failed scheduling leaves its caller the agreement. -/
theorem assign_of_schedule_error {error : Error}
    (failed : schedule key a command lookup s = (.error error, after)) :
    s.assign key a command lookup = (.error error, a, after) := by
  unfold schedule at failed
  cases assigned : s.assign key a command lookup with
  | mk result outcome =>
      obtain ⟨left, moved⟩ := outcome
      rw [assigned] at failed
      cases result with
      | error =>
          obtain rfl := agreement_of_assign_error assigned
          cases failed
          rfl
      | ok => cases failed

/-- A successful scheduling moves the wake time and nothing else of the agreement, and puts the key
among the old members of its interval. -/
theorem schedule_ok (scheduled : schedule key a command lookup s = (.ok granted, after)) :
    a.wakeInterval ≠ 0 ∧ a.wakeDuration.toUInt64 ≤ a.wakeInterval ∧
      ∃ position wakeTime,
        Placed lookup a command ((s.remove key).entries a.wakeInterval) position wakeTime ∧
        granted = { a with wakeTime } ∧
        after = (s.remove key).put a.wakeInterval
          (((s.remove key).entries a.wakeInterval).take position ++
            key :: ((s.remove key).entries a.wakeInterval).drop position) := by
  have scheduled := assign_of_schedule_ok scheduled
  unfold assign at scheduled
  dsimp only at scheduled
  split at scheduled
  · cases scheduled
  case isFalse nonzero =>
    split at scheduled
    · cases scheduled
    case isFalse fits =>
      refine ⟨nonzero, UInt64.not_lt.mp fits, ?_⟩
      split at scheduled
      case isTrue emptyGroup =>
        have none := List.isEmpty_iff.mp emptyGroup
        cases scheduled
        rw [none]
        exact ⟨0, 0, .first, rfl, rfl⟩
      case isFalse =>
        split at scheduled
        case isTrue demand =>
          cases scheduled
          refine ⟨_, a.wakeTime, .demanded demand, rfl, ?_⟩
          simp
        case isFalse =>
          cases found : place lookup a.wakeInterval a.wakeDuration.toUInt64
              ((s.remove key).entries a.wakeInterval) with
          | error error => simp [found] at scheduled
          | ok place =>
              simp only [found] at scheduled
              cases scheduled
              exact ⟨place.position, place.wakeTime, .fitted found, rfl, rfl⟩

/-- An agreement that no schedule has a place for: it does not recur, or it lasts longer than its
interval. -/
def Unfit (a : Agreement) : Prop :=
  a.wakeInterval = 0 ∨ a.wakeInterval < a.wakeDuration.toUInt64

/-- The ways in which scheduling fails: an unfit agreement is refused before anything moves, and for
any other one its key has left the schedule when no place is found. -/
inductive Refused (key : AgreementKey) (a : Agreement)
    (lookup : AgreementKey → Option ServicePeriod) (s : Schedule) : Error → Schedule → Prop where
  | unfit {error : Error} (unfit : Unfit a) : Refused key a lookup s error s
  | crowded {error : Error} (fit : ¬ Unfit a)
      (missed : place lookup a.wakeInterval a.wakeDuration.toUInt64
        ((s.remove key).entries a.wakeInterval) = .error error) :
      Refused key a lookup s error (s.remove key)

theorem refused {error : Error}
    (failed : schedule key a command lookup s = (.error error, after)) :
    Refused key a lookup s error after := by
  have failed := assign_of_schedule_error failed
  unfold assign at failed
  dsimp only at failed
  split at failed
  case isTrue zero =>
    cases failed
    exact .unfit (.inl zero)
  case isFalse nonzero =>
    split at failed
    case isTrue tooLong =>
      cases failed
      exact .unfit (.inr tooLong)
    case isFalse short =>
      split at failed
      · cases failed
      · split at failed
        · cases failed
        · split at failed
          case h_1 missed =>
            cases failed
            exact .crowded (not_or.mpr ⟨nonzero, short⟩) missed
          case h_2 => cases failed

/-- A failed scheduling may at most have taken the key out. -/
theorem schedule_error {error : Error}
    (failed : schedule key a command lookup s = (.error error, after)) :
    after = s ∨ after = s.remove key := by
  cases refused failed with
  | unfit => exact Or.inl rfl
  | crowded => exact Or.inr rfl

theorem mem_entries_schedule (wellFormed : s.WellFormed)
    (scheduled : schedule key a command lookup s = (.ok granted, after)) :
    other ∈ after.entries interval ↔
      if other = key then interval = a.wakeInterval else other ∈ s.entries interval := by
  obtain ⟨-, -, position, wakeTime, -, -, rfl⟩ := schedule_ok scheduled
  rw [entries_put]
  by_cases same : interval = a.wakeInterval
  · subst same
    have split := List.take_append_drop position ((s.remove key).entries a.wakeInterval)
    have oldMember : other ∈ (s.remove key).entries a.wakeInterval ↔
        other ∈ ((s.remove key).entries a.wakeInterval).take position ∨
          other ∈ ((s.remove key).entries a.wakeInterval).drop position := by
      rw [← List.mem_append, split]
    rw [mem_entries_remove wellFormed] at oldMember
    by_cases own : other = key
    · simp [own]
    · simp only [own, ne_eq, not_false_eq_true, and_true] at oldMember
      simp [own, oldMember]
  · rw [if_neg same, mem_entries_remove wellFormed]
    by_cases own : other = key
    · simp [own, same]
    · simp [own]

theorem wellFormed_schedule (wellFormed : s.WellFormed)
    (scheduled : schedule key a command lookup s = (.ok granted, after)) : after.WellFormed := by
  obtain ⟨-, -, position, wakeTime, -, -, rfl⟩ := schedule_ok scheduled
  have absent : ∀ interval, key ∉ (s.remove key).entries interval := fun interval held =>
    ((mem_entries_remove wellFormed).mp held).2 rfl
  have split := List.take_append_drop position ((s.remove key).entries a.wakeInterval)
  refine wellFormed_put (wellFormed_remove wellFormed) (by simp) ?_ ?_
  · rw [List.perm_middle.nodup_iff, split, List.nodup_cons]
    exact ⟨absent _, (wellFormed_remove wellFormed).nodup _⟩
  · intro member held interval elsewhere
    have memberOf : member = key ∨ member ∈ (s.remove key).entries a.wakeInterval := by
      rw [← split]
      simp only [List.mem_append, List.mem_cons] at held ⊢
      tauto
    rcases memberOf with rfl | old
    · exact absurd elsewhere (absent interval)
    · exact (wellFormed_remove wellFormed).single member interval _ elsewhere old

/-! ### Every schedule -/

/-- The schedules that there are: the empty one, and what scheduling, whether it succeeds or fails,
and removing make of others. -/
inductive Built : Schedule → Prop where
  | empty : Built .empty
  | scheduled {s : Schedule} (key : AgreementKey) (a : Agreement) (command : SetupCommand)
      (lookup : AgreementKey → Option ServicePeriod) (built : Built s) :
      Built (schedule key a command lookup s).2
  | removed {s : Schedule} (key : AgreementKey) (built : Built s) : Built (s.remove key)

theorem Built.wellFormed (built : s.Built) : s.WellFormed := by
  induction built with
  | empty => exact wellFormed_empty
  | @scheduled s key a command lookup _ inductionHypothesis =>
      cases outcome : schedule key a command lookup s with
      | mk result after =>
          cases result with
          | ok granted => exact wellFormed_schedule inductionHypothesis outcome
          | error error =>
              rcases schedule_error outcome with rfl | rfl
              · exact inductionHypothesis
              · exact wellFormed_remove inductionHypothesis
  | removed key _ inductionHypothesis => exact wellFormed_remove inductionHypothesis

end TargetWakeTime.Schedule
