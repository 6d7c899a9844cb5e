import TargetWakeTime.MacAddress

/-!
Contract: the link of an interface: whether it is associated, with whom, and which peers it knows.

Associating makes the access point a known peer. Disassociating forgets it, other peers stay.
-/

namespace TargetWakeTime

structure Association where
  associated : Bool := false
  bssid : Option MacAddress := none
  /-- Peers that frames can be addressed to, each once. -/
  peers : List MacAddress := []
deriving DecidableEq, Repr

namespace Association

def addPeer (address : MacAddress) (a : Association) : Association :=
  if address ∈ a.peers then a else { a with peers := a.peers ++ [address] }

def removePeer (address : MacAddress) (a : Association) : Association :=
  { a with peers := a.peers.filter (· ≠ address) }

def associate (bssid : MacAddress) (a : Association) : Association :=
  { a with associated := true, bssid := some bssid }.addPeer bssid

def disassociate (a : Association) : Association :=
  let left := { a with associated := false, bssid := none }
  match a.bssid with
  | some bssid => left.removePeer bssid
  | none => left

/-- Whether frames can be addressed to this peer. -/
def knows (address : MacAddress) (a : Association) : Bool := a.peers.contains address

/-- The access point, while associated to one. -/
def accessPoint? (a : Association) : Option MacAddress :=
  if a.associated then a.bssid else none

end Association

end TargetWakeTime
