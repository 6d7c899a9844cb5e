import TargetWakeTime.Event

/-!
Contract: first-in first-out queues of events.

The view of a queue is `toList`, oldest event first. Filters take an optional source and an optional
flow.
-/

namespace TargetWakeTime

structure EventQueue where
  /-- The oldest event comes first. -/
  toList : List Event := []
deriving DecidableEq, Repr

namespace EventQueue

def empty : EventQueue := {}

def size (q : EventQueue) : Nat := q.toList.length

def isEmpty (q : EventQueue) : Bool := q.toList.isEmpty

def push (e : Event) (q : EventQueue) : EventQueue := ⟨q.toList ++ [e]⟩

/-- The oldest event that passes the filter. -/
def peek? (source : Option MacAddress) (flow : Option UInt8) (q : EventQueue) : Option Event :=
  q.toList.find? (·.passes source flow)

def contains (source : MacAddress) (flow : UInt8) (q : EventQueue) : Bool :=
  (q.peek? (some source) (some flow)).isSome

def pop? (source : Option MacAddress) (flow : Option UInt8) (q : EventQueue) :
    Option (Event × EventQueue) :=
  (q.peek? source flow).map fun e => (e, ⟨q.toList.eraseP (·.passes source flow)⟩)

def purge (source : Option MacAddress) (flow : Option UInt8) (q : EventQueue) : EventQueue :=
  ⟨q.toList.filter fun e => !e.passes source flow⟩

/-- How many events pass the filter. -/
def count (source : Option MacAddress) (flow : Option UInt8) (q : EventQueue) : Nat :=
  q.toList.countP (·.passes source flow)

/-- Queues an event in place of any older one of the same source and flow. -/
def pushLatest (e : Event) (q : EventQueue) : EventQueue :=
  (q.purge (some e.source) (some e.flow)).push e

@[simp] theorem toList_empty : empty.toList = [] := rfl

@[simp] theorem toList_push (e : Event) (q : EventQueue) :
    (q.push e).toList = q.toList ++ [e] := rfl

@[simp] theorem toList_purge (source : Option MacAddress) (flow : Option UInt8) (q : EventQueue) :
    (q.purge source flow).toList = q.toList.filter fun e => !e.passes source flow := rfl

/-- Purging takes out exactly the events that are counted. -/
theorem size_purge (source : Option MacAddress) (flow : Option UInt8) (q : EventQueue) :
    (q.purge source flow).size + q.count source flow = q.size := by
  simp only [size, count, toList_purge, ← List.countP_eq_length_filter]
  have split := List.length_eq_countP_add_countP (·.passes source flow) (l := q.toList)
  simp only [Bool.not_eq_true, Bool.decide_eq_false] at split
  rw [Nat.add_comm]
  exact split.symm

@[simp] theorem purge_none (q : EventQueue) : q.purge none none = empty := by
  simp [purge, empty]

end EventQueue

end TargetWakeTime
