import TargetWakeTime.Simulation.World

/-!
Contract: a network of one access point and its stations on one air.

Owns the addresses, the set-up, and operations on a station by its number. Station numbers that do
not exist are refused. Each node has a chip of its own.
-/

namespace TargetWakeTime.Simulation

namespace Network

def accessPointAddress : MacAddress := ⟨0x02, 0x48, 0x4c, 0x00, 0x00, 0x00⟩

/-- The address of a station: the last octet counts from one and wraps, the one before it holds the
number's second octet. -/
def stationAddress (index : Nat) : MacAddress :=
  ⟨0x02, 0x48, 0x4c, 0x00, UInt8.ofNat (index / 256), UInt8.ofNat (index % 256 + 1)⟩

structure Settings where
  node : Node.Settings := {}
  stations : Nat := 2
deriving DecidableEq, Repr

structure NoStation where
  index : Nat
deriving DecidableEq, Repr

def NoStation.message (e : NoStation) : String := s!"no station {e.index}"

end Network

structure Network where
  /-- The access point is the first node, the stations follow it. -/
  world : World

namespace Network

def accessPoint : Nat := 0

def stationNode (index : Nat) : Nat := index + 1

def new (settings : Settings) : Network :=
  let accessPointNode :=
    Node.new settings.node (.new 0 accessPointAddress Negotiation.Settings.accessPoint)
  let station (index : Nat) :=
    Node.new settings.node (.new 1 (stationAddress index) Negotiation.Settings.station)
  { world :=
      { nodes := accessPointNode :: (List.range settings.stations).map station
        radio := .air } }

def size (n : Network) : Nat := n.world.nodes.length - 1

def withWorld (f : World → World) (n : Network) : Network := { n with world := f n.world }

/-- The station of this number, or why there is none. -/
def station (index : Nat) (n : Network) : Except NoStation Node :=
  match n.world.node? (stationNode index) with
  | some node => .ok node
  | none => .error ⟨index⟩

def accessPoint? (n : Network) : Option Node := n.world.node? accessPoint

def withAccessPointLink (f : Association → Association) (n : Network) : Network :=
  n.withWorld (·.modifyInterface accessPoint (·.withLink f))

def withStationLink (index : Nat) (f : Association → Association) (n : Network) : Network :=
  n.withWorld (·.modifyInterface (stationNode index) (·.withLink f))

/-- Both ends of a link learn of each other. -/
def associate (index : Nat) (n : Network) : Except NoStation Unit × Network :=
  match n.station index with
  | .error error => (.error error, n)
  | .ok node =>
      let address := node.interface.address
      (.ok (),
        (n.withStationLink index (·.associate accessPointAddress)).withAccessPointLink
          (·.addPeer address))

/-- Both ends of a link forget each other, and what they had negotiated. -/
def disassociate (index : Nat) (n : Network) : Except NoStation Unit × Network :=
  match n.station index with
  | .error error => (.error error, n)
  | .ok node =>
      let address := node.interface.address
      let n := n.withWorld fun w =>
        (w.modifyInterface accessPoint fun i => (i.removeStation address).2).modifyInterface
          (stationNode index) fun i => (i.removeStation accessPointAddress).2
      (.ok (),
        (n.withStationLink index (·.disassociate)).withAccessPointLink (·.removePeer address))

/-- Flushes every station in order and then the access point, three times over. -/
def settle (n : Network) : Network :=
  let nodes := (List.range n.size).map stationNode ++ [accessPoint]
  n.withWorld fun w =>
    (nodes ++ nodes ++ nodes).foldl (fun w index => w.flush index) w

/-- Stops every node and takes its chip away, the access point last. -/
def shutdown (n : Network) : Network :=
  let nodes := (List.range n.size).map stationNode ++ [accessPoint]
  n.withWorld fun w => nodes.foldl (fun w index => (w.finish index).detach index) w

/-- What a station and its access point say to each other when the station joins. -/
structure Join where
  request : Option (List UInt8)
  response : Except Error (Option (List UInt8))

/-- The access point becomes ready to address a station and answers its request, if there is one. -/
def askAccessPoint (address : MacAddress) (request : Option (List UInt8)) (n : Network) :
    Except Error (Option (List UInt8)) × Network :=
  match request with
  | none => (.ok none, n)
  | some element =>
      let n := n.withAccessPointLink (·.addPeer address)
      match n.world.onInterface accessPoint (·.associationRequest address element) with
      | none => (.ok none, n)
      | some (response, world) => (response, { n with world })

/-- A station joins with the request it has stored: the access point becomes ready to address it and
answers the request, the station takes the answer, and its link comes up. -/
def join (index : Nat) (n : Network) : Except NoStation Join × Network :=
  match n.station index with
  | .error error => (.error error, n)
  | .ok node =>
      let address := node.interface.address
      let asked := n.world.onInterface (stationNode index) (·.associationRequestElement)
      let (request, n) :=
        match asked with
        | some (request, world) => (request, { n with world })
        | none => (none, n)
      let (response, n) := n.askAccessPoint address request
      let n :=
        match response with
        | .ok (some element) =>
            n.withWorld (·.modifyInterface (stationNode index) fun i =>
              (i.associationResponse accessPointAddress element).2)
        | .ok none | .error _ => n
      let n := n.withStationLink index (·.associate accessPointAddress)
      let n := n.withWorld (·.modifyInterface (stationNode index) (·.authorized))
      (.ok { request, response }, n)

end Network

end TargetWakeTime.Simulation
