import TargetWakeTime.Negotiation.Basic

/-!
Contract: counting service periods of a responder that run into the next one.

All agreements are taken together, whatever their wake intervals. Each is reduced to its first
period within its own interval; these are ordered by start and then by end, and each is compared
with its successor only.
-/

namespace TargetWakeTime.Simulation

/-- Start and end of a period, as numbers of microseconds. -/
structure Span where
  start : Nat
  finish : Nat
deriving DecidableEq, Repr

namespace Span

/-- The first period of an agreement within its interval. -/
def ofAgreement (a : Agreement) : Span :=
  let start := a.wakeTime.toNat % max a.wakeInterval.toNat 1
  ⟨start, start + a.wakeDuration.toNat⟩

def le (a b : Span) : Bool := a.start < b.start || (a.start == b.start && a.finish ≤ b.finish)

/-- How many spans of an ordered list start before their predecessor ends. -/
def overlaps : List Span → Nat
  | first :: second :: rest =>
      (if second.start < first.finish then 1 else 0) + overlaps (second :: rest)
  | _ => 0

end Span

/-- How many service periods of a responder's agreements run into the next one. -/
def overlappingPeriods (n : Negotiation) : Nat :=
  let agreements := n.stations.stations.flatMap fun station =>
    station.slots.toList.filterMap (·.agreement)
  Span.overlaps ((agreements.map Span.ofAgreement).mergeSort Span.le)

end TargetWakeTime.Simulation
