import TargetWakeTime.EventQueue
import TargetWakeTime.Agreement.Key

/-!
Contract: queues in which each source and flow has at most one event.

Owns the key of an event, and what pushing, purging and taking out do to queues of distinct keys.
-/

namespace TargetWakeTime

/-- The source and the flow of an event. -/
def Event.key (e : Event) : AgreementKey := ⟨e.source, e.flow⟩

theorem Event.flow_teardown {flow : UInt8} (source : MacAddress) (small : flow.toNat < 8) :
    (Event.teardown source flow).flow = flow := by
  show UInt8.ofNat (flow.toNat % 8) = flow
  rw [Nat.mod_eq_of_lt small, UInt8.ofNat_toNat]

theorem Event.key_teardown {flow : UInt8} (source : MacAddress) (small : flow.toNat < 8) :
    (Event.teardown source flow).key = ⟨source, flow⟩ :=
  congrArg (AgreementKey.mk source) (flow_teardown source small)

theorem Event.passes_some_none {e : Event} {source : MacAddress} :
    e.passes (some source) none = true ↔ e.source = source := by
  rw [passes, Option.all_some, Option.all_none, Bool.and_true, beq_iff_eq]
  exact ⟨Eq.symm, Eq.symm⟩

theorem Event.passes_some_some {e : Event} {source : MacAddress} {flow : UInt8} :
    e.passes (some source) (some flow) = true ↔ e.key = ⟨source, flow⟩ := by
  rw [passes, Option.all_some, Option.all_some, Bool.and_eq_true, beq_iff_eq, beq_iff_eq, key,
    AgreementKey.mk.injEq]
  exact ⟨fun same => ⟨same.1.symm, same.2.symm⟩, fun same => ⟨same.1.symm, same.2.symm⟩⟩

namespace EventQueue

/-- No two events of the queue have the same source and flow. -/
def Distinct (q : EventQueue) : Prop := (q.toList.map Event.key).Nodup

variable {q : EventQueue} {e : Event}

theorem distinct_empty : Distinct {} := List.Pairwise.nil

theorem contains_iff {source : MacAddress} {flow : UInt8} :
    q.contains source flow = true ↔ ∃ e ∈ q.toList, e.key = ⟨source, flow⟩ := by
  rw [contains, peek?, List.find?_isSome]
  simp only [Event.passes_some_some]

theorem distinct_push (distinct : q.Distinct) (absent : ∀ other ∈ q.toList, other.key ≠ e.key) :
    (q.push e).Distinct := by
  simp only [Distinct, toList_push, List.map_append, List.map_cons, List.map_nil,
    List.nodup_append, List.mem_map, List.mem_singleton]
  refine ⟨distinct, by simp, ?_⟩
  rintro _ ⟨other, member, rfl⟩ _ rfl
  exact absent other member

theorem distinct_filter {p : Event → Bool} (distinct : q.Distinct) :
    Distinct ⟨q.toList.filter p⟩ :=
  List.Nodup.sublist (List.filter_sublist.map _) distinct

theorem distinct_purge {source : Option MacAddress} {flow : Option UInt8}
    (distinct : q.Distinct) : (q.purge source flow).Distinct :=
  distinct_filter distinct

theorem mem_pushLatest {other : Event} :
    other ∈ (q.pushLatest e).toList ↔ other ∈ q.toList ∧ other.key ≠ e.key ∨ other = e := by
  have kept : (!other.passes (some e.source) (some e.flow)) = true ↔ other.key ≠ e.key := by
    rw [Bool.not_eq_true', Bool.eq_false_iff, Ne, Event.passes_some_some]
    rfl
  rw [pushLatest, toList_push, toList_purge, List.mem_append, List.mem_filter, List.mem_singleton,
    kept]

theorem mem_or_eq_of_mem_pushLatest {other : Event} (member : other ∈ (q.pushLatest e).toList) :
    other ∈ q.toList ∨ other = e :=
  (mem_pushLatest.mp member).imp_left And.left

theorem distinct_pushLatest (distinct : q.Distinct) : (q.pushLatest e).Distinct := by
  refine distinct_push (distinct_purge distinct) fun other member => ?_
  have kept : ¬ other.passes (some e.source) (some e.flow) = true := by
    simpa using (List.mem_filter.mp member).2
  rwa [Event.passes_some_some] at kept

/-! ### Taking out -/

theorem mem_of_peek? {source : Option MacAddress} {flow : Option UInt8}
    (first : q.peek? source flow = some e) : e ∈ q.toList :=
  List.mem_of_find?_eq_some first

/-- Taking out the oldest event that passes a filter leaves all others as they are. -/
theorem exists_split_of_peek? {source : Option MacAddress} {flow : Option UInt8}
    (first : q.peek? source flow = some e) :
    ∃ before after, q.toList = before ++ e :: after ∧
      q.toList.eraseP (·.passes source flow) = before ++ after := by
  obtain ⟨passes, before, after, split, skipped⟩ := List.find?_eq_some_iff_append.mp first
  refine ⟨before, after, split, ?_⟩
  have none : ∀ other ∈ before, ¬ other.passes source flow = true := by
    intro other member
    simpa using skipped other member
  rw [split, List.eraseP_append_right _ none, List.eraseP_cons_of_pos passes]

/-- If some events pass a filter, the first of them is taken out, and those that are left of either
kind keep their order. -/
theorem exists_pop?_of_filter {source : Option MacAddress} {flow : Option UInt8}
    {rest : List Event} (passing : q.toList.filter (·.passes source flow) = e :: rest) :
    ∃ left, q.pop? source flow = some (e, left) ∧
      left.toList.filter (·.passes source flow) = rest ∧
      left.toList.filter (!·.passes source flow) = q.toList.filter (!·.passes source flow) := by
  obtain ⟨before, after, split, skipped, passes, rfl⟩ := List.filter_eq_cons_iff.mp passing
  have first : q.peek? source flow = some e := by
    rw [peek?, ← List.head?_filter, passing, List.head?_cons]
  have taken : q.toList.eraseP (·.passes source flow) = before ++ after := by
    rw [split, List.eraseP_append_right _ skipped, List.eraseP_cons_of_pos passes]
  refine ⟨⟨before ++ after⟩, ?_, ?_, ?_⟩
  · rw [pop?, first, Option.map_some, taken]
  · rw [List.filter_append, List.filter_eq_nil_iff.mpr skipped, List.nil_append]
  · rw [split, List.filter_append, List.filter_append, List.filter_cons_of_neg (by simp [passes])]

theorem pop?_eq_none_of_filter {source : Option MacAddress} {flow : Option UInt8}
    (passing : q.toList.filter (·.passes source flow) = []) :
    q.pop? source flow = none ∧ q.toList.filter (!·.passes source flow) = q.toList := by
  rw [List.filter_eq_nil_iff] at passing
  refine ⟨?_, ?_⟩
  · rw [pop?, peek?, List.find?_eq_none.mpr passing, Option.map_none]
  · rw [List.filter_eq_self]
    intro other member
    simpa using passing other member

theorem distinct_eraseP {p : Event → Bool} (distinct : q.Distinct) :
    Distinct ⟨q.toList.eraseP p⟩ :=
  List.Nodup.sublist ((List.eraseP_sublist ..).map _) distinct

/-- Once the event that is found is taken out, no other has its key. -/
theorem key_ne_of_mem_eraseP {p : Event → Bool} (distinct : q.Distinct)
    (found : q.toList.find? p = some e) {other : Event} (left : other ∈ q.toList.eraseP p) :
    other.key ≠ e.key := by
  obtain ⟨toList⟩ := q
  simp only [Distinct] at distinct found left
  induction toList with
  | nil => cases left
  | cons first rest inductionHypothesis =>
      rw [List.map_cons, List.nodup_cons] at distinct
      cases passes : p first with
      | true =>
          rw [List.find?_cons, passes] at found
          rw [List.eraseP_cons, passes] at left
          cases found
          intro sameKey
          exact distinct.1 (List.mem_map.mpr ⟨other, left, sameKey⟩)
      | false =>
          rw [List.find?_cons, passes] at found
          rw [List.eraseP_cons, passes] at left
          rcases List.mem_cons.mp left with rfl | later
          · intro sameKey
            have member : e ∈ rest := List.mem_of_find?_eq_some found
            exact distinct.1 (List.mem_map.mpr ⟨e, member, sameKey.symm⟩)
          · exact inductionHypothesis distinct.2 found later

end EventQueue

end TargetWakeTime
