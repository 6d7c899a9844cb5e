import TargetWakeTime.ServicePeriod
import TargetWakeTime.Station

/-!
Contract: the stations that a responder knows, in order of arrival and at most `capacity` of them.
-/

namespace TargetWakeTime

structure StationTable where
  capacity : Nat
  stations : List Station := []
deriving DecidableEq, Repr

namespace StationTable

def size (t : StationTable) : Nat := t.stations.length

def isEmpty (t : StationTable) : Bool := t.stations.isEmpty

def get? (address : MacAddress) (t : StationTable) : Option Station :=
  t.stations.find? (·.address == address)

def contains (address : MacAddress) (t : StationTable) : Bool := (t.get? address).isSome

/-- Makes sure that a station is known; a new one comes last, and none comes to a full table. -/
def ensure (address : MacAddress) (t : StationTable) : Except Error StationTable :=
  if t.contains address then .ok t
  else if t.capacity ≤ t.size then .error .resourceExhausted
  else .ok { t with stations := t.stations ++ [{ address }] }

def modify (address : MacAddress) (f : Station → Station) (t : StationTable) : StationTable :=
  { t with stations := t.stations.map fun s => if s.address = address then f s else s }

def modifySlots (address : MacAddress) (f : Slots → Slots) (t : StationTable) : StationTable :=
  t.modify address fun s => { s with slots := f s.slots }

def remove (address : MacAddress) (t : StationTable) : StationTable :=
  { t with stations := t.stations.eraseP (·.address == address) }

def clear (t : StationTable) : StationTable := { t with stations := [] }

/-- The slot of a station's flow, if both exist. -/
def slot? (key : AgreementKey) (t : StationTable) : Option Slot :=
  (t.get? key.address).bind (·.slots.get? key.flow)

def agreement? (key : AgreementKey) (t : StationTable) : Option Agreement :=
  (t.slot? key).bind (·.agreement)

/-- The timing of an agreement, once there is one. -/
def servicePeriod? (key : AgreementKey) (t : StationTable) : Option ServicePeriod :=
  (t.agreement? key).map .ofAgreement

end StationTable

end TargetWakeTime
