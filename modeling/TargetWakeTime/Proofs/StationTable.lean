import TargetWakeTime.StationTable

/-!
Contract: what each operation on a station table does to single stations and slots.

Owns:
- the addresses of a table are distinct, and every operation keeps them so;
- reading a station or a slot after a table was extended, rewritten or shortened;
- the note of a station, which is the token of an action frame that has no answer yet.

The view of a table is `get?` for stations and `slot?` for slots; no later module looks at the list
of stations itself.
-/

namespace TargetWakeTime

/-- The token of the action frame that has no answer yet. -/
def Station.note (s : Station) : Option UInt8 :=
  if s.actionPending then some s.dialogToken else none

namespace StationTable

/-- No two stations share an address. -/
def Distinct (t : StationTable) : Prop := (t.stations.map (·.address)).Nodup

variable {t : StationTable} {address other : MacAddress}

theorem address_of_get? {station : Station} (found : t.get? address = some station) :
    station.address = address := by
  simpa using List.find?_some found

/-! ### Rewriting a station -/

theorem get?_modify {f : Station → Station}
    (keepsAddress : ∀ station, (f station).address = station.address) :
    (t.modify address f).get? other =
      if other = address then (t.get? address).map f else t.get? other := by
  have sameAddress : ∀ station : Station,
      (if station.address = address then f station else station).address = station.address := by
    intro station
    split
    · exact keepsAddress station
    · rfl
  have moved : (t.modify address f).get? other =
      (t.get? other).map fun station =>
        if station.address = address then f station else station := by
    simp only [get?, modify, List.find?_map]
    congr 2
    funext station
    simp only [Function.comp_apply, sameAddress]
  rw [moved]
  by_cases same : other = address
  · subst same
    rw [if_pos rfl]
    cases found : t.get? other with
    | none => rfl
    | some station => simp [address_of_get? found]
  · rw [if_neg same]
    cases found : t.get? other with
    | none => rfl
    | some station => simp [address_of_get? found, same]

theorem distinct_modify {f : Station → Station}
    (keepsAddress : ∀ station, (f station).address = station.address) (distinct : t.Distinct) :
    (t.modify address f).Distinct := by
  have sameAddresses : (t.modify address f).stations.map (·.address) =
      t.stations.map (·.address) := by
    simp only [modify, List.map_map]
    apply List.map_congr_left
    intro station _
    simp only [Function.comp_apply]
    split
    · exact keepsAddress station
    · rfl
  rw [Distinct, sameAddresses]
  exact distinct

theorem distinct_modifySlots {f : Slots → Slots} (distinct : t.Distinct) :
    (t.modifySlots address f).Distinct :=
  distinct_modify (fun _ => rfl) distinct

/-! ### Adding a station -/

/-- Only a full table has no place for a station, and only if it does not know it. -/
theorem ensure_eq_error_iff {error : Error} :
    t.ensure address = .error error ↔
      t.contains address = false ∧ t.capacity ≤ t.size ∧ error = .resourceExhausted := by
  unfold ensure
  split
  case isTrue known => simp [known]
  case isFalse unknown =>
    split
    case isTrue full => simp [unknown, full, eq_comm]
    case isFalse room => simp [room]

theorem get?_of_ensure {extended : StationTable} (ensured : t.ensure address = .ok extended) :
    extended.get? other =
      if other = address then some ((t.get? address).getD { address }) else t.get? other := by
  unfold ensure at ensured
  split at ensured
  case isTrue known =>
    cases ensured
    by_cases same : other = address
    · subst same
      obtain ⟨station, found⟩ := Option.isSome_iff_exists.mp known
      simp [found]
    · simp [same]
  case isFalse unknown =>
    split at ensured
    · cases ensured
    · cases ensured
      have absent : t.get? address = none := by simpa [contains] using unknown
      by_cases same : other = address
      · subst same
        simp only [get?] at absent
        simp [get?, List.find?_append, absent]
      · have otherAddress : ¬ address = other := fun equal => same equal.symm
        simp [get?, List.find?_append, same, otherAddress]

theorem distinct_of_ensure {extended : StationTable} (ensured : t.ensure address = .ok extended)
    (distinct : t.Distinct) : extended.Distinct := by
  unfold ensure at ensured
  split at ensured
  · cases ensured
    exact distinct
  case isFalse unknown =>
    split at ensured
    · cases ensured
    · cases ensured
      have absent : ∀ station ∈ t.stations, station.address ≠ address := by
        simpa [contains, get?] using unknown
      simp only [Distinct, List.map_append, List.map_cons, List.map_nil, List.nodup_append,
        List.nodup_cons, List.not_mem_nil, not_false_eq_true, List.nodup_nil, and_self,
        List.mem_map, List.mem_singleton, true_and]
      refine ⟨distinct, ?_⟩
      rintro _ ⟨station, member, rfl⟩ _ rfl
      exact absent station member

/-! ### Removing a station -/

theorem get?_remove (distinct : t.Distinct) :
    (t.remove address).get? other = if other = address then none else t.get? other := by
  obtain ⟨capacity, stations⟩ := t
  simp only [Distinct, get?, remove] at distinct ⊢
  induction stations with
  | nil => simp
  | cons first rest inductionHypothesis =>
      simp only [List.map_cons, List.nodup_cons] at distinct
      by_cases here : first.address = address
      · subst here
        have absent : rest.find? (·.address == first.address) = none := by
          rw [List.find?_eq_none]
          intro station member
          have memberAddress : station.address ∈ rest.map (·.address) :=
            List.mem_map_of_mem member
          have apart : station.address ≠ first.address := by
            rintro equal
            exact distinct.1 (equal ▸ memberAddress)
          simpa using apart
        by_cases same : other = first.address
        · subst same
          simp [absent]
        · have apart : ¬ first.address = other := fun equal => same equal.symm
          simp [same, apart]
      · have kept : (first.address == address) = false := by simpa using here
        rw [List.eraseP_cons, kept, cond_false, List.find?_cons, List.find?_cons]
        by_cases found : first.address = other
        · subst found
          simp [here]
        · have passed : (first.address == other) = false := by simpa using found
          simp only [passed, inductionHypothesis distinct.2]

theorem distinct_remove (distinct : t.Distinct) : (t.remove address).Distinct :=
  List.Nodup.sublist (List.Sublist.map _ (List.eraseP_sublist ..)) distinct

/-! ### Slots -/

variable {key : AgreementKey}

/-- Only a station that is known has slots. -/
theorem contains_of_slot? {slot : Slot} (found : t.slot? key = some slot) :
    t.contains key.address = true := by
  obtain ⟨station, known, -⟩ := Option.bind_eq_some_iff.mp found
  rw [contains, known]
  rfl

theorem slot?_modifySlots {flow : UInt8} {f : Slot → Slot} :
    (t.modifySlots address (·.modify flow f)).slot? key =
      if key = ⟨address, flow⟩ then (t.slot? key).map f else t.slot? key := by
  obtain ⟨owner, keyFlow⟩ := key
  simp only [slot?, modifySlots,
    get?_modify (f := fun s : Station => { s with slots := s.slots.modify flow f }) (fun _ => rfl)]
  by_cases sameOwner : owner = address
  · subst sameOwner
    cases found : t.get? owner with
    | none => simp
    | some station =>
        simp only [if_true, Option.map_some, Option.bind_some, Slots.get?_modify,
          AgreementKey.mk.injEq, true_and]
        by_cases sameFlow : keyFlow = flow
        · simp [sameFlow]
        · simp [sameFlow]
  · simp [sameOwner]

theorem slot?_setState {flow : UInt8} {state : AgreementState} :
    (t.modifySlots address (·.setState flow state)).slot? key =
      if key = ⟨address, flow⟩ then (t.slot? key).map ({ · with state }) else t.slot? key :=
  slot?_modifySlots

theorem slot?_setAgreement {flow : UInt8} {agreement : Option Agreement} :
    (t.modifySlots address (·.setAgreement flow agreement)).slot? key =
      if key = ⟨address, flow⟩ then (t.slot? key).map ({ · with agreement })
      else t.slot? key :=
  slot?_modifySlots

@[simp] theorem agreement?_setState {flow : UInt8} {state : AgreementState} :
    (t.modifySlots address (·.setState flow state)).agreement? key = t.agreement? key := by
  simp only [agreement?, slot?_setState]
  split
  · cases t.slot? key <;> rfl
  · rfl

theorem agreement?_setAgreement {flow : UInt8} {agreement : Option Agreement} :
    (t.modifySlots address (·.setAgreement flow agreement)).agreement? key =
      if key = ⟨address, flow⟩ then (t.slot? key).bind fun _ => agreement
      else t.agreement? key := by
  simp only [agreement?, slot?_setAgreement]
  split
  · cases t.slot? key <;> rfl
  · rfl

theorem slot?_modify_of_slots {f : Station → Station}
    (keepsAddress : ∀ station, (f station).address = station.address)
    (keepsSlots : ∀ station, (f station).slots = station.slots) :
    (t.modify address f).slot? key = t.slot? key := by
  simp only [slot?, get?_modify keepsAddress]
  split
  case isTrue same =>
    rw [same]
    cases t.get? address with
    | none => rfl
    | some station => simp [keepsSlots]
  case isFalse => rfl

/-- A new station's slots are as good as none. -/
theorem slot?_of_ensure {extended : StationTable} {slot : Slot}
    (ensured : t.ensure address = .ok extended) (found : extended.slot? key = some slot) :
    t.slot? key = some slot ∨ t.slot? key = none ∧ slot = {} := by
  simp only [slot?, get?_of_ensure ensured] at found ⊢
  by_cases same : key.address = address
  · rw [if_pos same] at found
    rw [same]
    cases known : t.get? address with
    | some station => exact Or.inl (by simpa [known] using found)
    | none =>
        have fresh : Slots.empty.get? key.flow = some slot := by simpa [known] using found
        simp only [Slots.get?, Slots.empty, Vector.getElem?_replicate] at fresh
        split at fresh
        · simpa using fresh.symm
        · cases fresh
  · rw [if_neg same] at found
    exact Or.inl found

theorem slot?_of_ensure_of_some {extended : StationTable} {slot : Slot}
    (ensured : t.ensure address = .ok extended) (found : t.slot? key = some slot) :
    extended.slot? key = some slot := by
  simp only [slot?, get?_of_ensure ensured] at found ⊢
  by_cases same : key.address = address
  · rw [if_pos same]
    rw [same] at found
    cases known : t.get? address with
    | some station => simpa [known] using found
    | none => simp [known] at found
  · rwa [if_neg same]

theorem agreement?_of_ensure {extended : StationTable}
    (ensured : t.ensure address = .ok extended) :
    extended.agreement? key = t.agreement? key := by
  unfold agreement?
  cases found : extended.slot? key with
  | some slot =>
      rcases slot?_of_ensure ensured found with known | ⟨absent, rfl⟩
      · rw [known]
      · rw [absent]
        rfl
  | none =>
      cases known : t.slot? key with
      | none => rfl
      | some slot =>
          rw [slot?_of_ensure_of_some ensured known] at found
          cases found

theorem slot?_remove (distinct : t.Distinct) :
    (t.remove address).slot? key = if key.address = address then none else t.slot? key := by
  simp only [slot?, get?_remove distinct]
  split <;> rfl

theorem agreement?_remove (distinct : t.Distinct) :
    (t.remove address).agreement? key =
      if key.address = address then none else t.agreement? key := by
  simp only [agreement?, slot?_remove distinct]
  split <;> rfl

theorem exists_slot_of_agreement? {a : Agreement} (held : t.agreement? key = some a) :
    ∃ slot, t.slot? key = some slot ∧ slot.agreement = some a :=
  Option.bind_eq_some_iff.mp held

/-- Only the eight flows have slots. -/
theorem flow_lt_of_slot? {slot : Slot} (found : t.slot? key = some slot) : key.flow.toNat < 8 := by
  obtain ⟨station, -, inSlots⟩ := Option.bind_eq_some_iff.mp found
  exact (Vector.getElem?_eq_some_iff.mp inSlots).1

/-! ### Notes -/

/-- What is noted for a station. -/
def note? (address : MacAddress) (t : StationTable) : Option UInt8 :=
  (t.get? address).bind Station.note

theorem note?_of_unknown (unknown : t.contains address = false) : t.note? address = none := by
  have absent : t.get? address = none := by simpa [contains] using unknown
  rw [note?, absent]
  rfl

theorem note?_modify {f : Station → Station}
    (keepsAddress : ∀ station, (f station).address = station.address) :
    (t.modify address f).note? other =
      if other = address then (t.get? address).bind fun station => (f station).note
      else t.note? other := by
  simp only [note?, get?_modify keepsAddress]
  split
  · cases t.get? address <;> rfl
  · rfl

/-- Slots have no notes. -/
theorem note?_modifySlots (f : Slots → Slots) :
    (t.modifySlots address f).note? other = t.note? other := by
  refine Eq.trans (note?_modify fun _ => rfl) ?_
  split
  case isTrue same =>
    rw [same]
    rfl
  case isFalse => rfl

/-- Nothing is noted for a new station. -/
theorem note?_of_ensure {extended : StationTable} (ensured : t.ensure address = .ok extended) :
    extended.note? other = t.note? other := by
  simp only [note?, get?_of_ensure ensured]
  split
  case isTrue same =>
    rw [same]
    cases t.get? address <;> rfl
  case isFalse => rfl

/-- A table without the note of a station. -/
def withoutNote (address : MacAddress) (t : StationTable) : StationTable :=
  t.modify address ({ · with actionPending := false })

theorem note?_withoutNote :
    (t.withoutNote address).note? other = if other = address then none else t.note? other := by
  refine Eq.trans (note?_modify fun _ => rfl) ?_
  cases t.get? address <;> rfl

theorem slot?_withoutNote {key : AgreementKey} :
    (t.withoutNote address).slot? key = t.slot? key :=
  slot?_modify_of_slots (fun _ => rfl) (fun _ => rfl)

theorem distinct_withoutNote (distinct : t.Distinct) : (t.withoutNote address).Distinct :=
  distinct_modify (fun _ => rfl) distinct

/-- A table with this note of a station. -/
def withNote (address : MacAddress) (token : UInt8) (t : StationTable) : StationTable :=
  t.modify address ({ · with dialogToken := token, actionPending := true })

theorem note?_withNote {token : UInt8} (known : t.contains address = true) :
    (t.withNote address token).note? other =
      if other = address then some token else t.note? other := by
  obtain ⟨station, found⟩ := Option.isSome_iff_exists.mp known
  refine Eq.trans (note?_modify fun _ => rfl) ?_
  rw [found]
  rfl

end StationTable

end TargetWakeTime
