import TargetWakeTime.Proofs.Runs
import TargetWakeTime.Proofs.Simulation.Requests

/-!
Contract: the access point and its stations agree, whatever is asked of the stations.

Owns:
- requests to a network: a station joins, leaves, asks for a flow, or gives one up; the network settles
  after each;
- networks at rest, and networks in which both ends of every flow agree;
- that a new network is settled, that each request leads from a settled network to a settled one, and
  that in a settled network both ends agree.

This holds for up to 64 stations, which is as many as the access point has room for, with chips that
confirm every command before its sender gives up. The time that a confirm takes may be any below the
timeout, but it is the same for all of them, and the workers run in the order in which the world wakes
them: confirms that now come sooner and now later, and other orders of the workers, are not looked at.
-/

namespace TargetWakeTime.Simulation

/-- A flow of a requester has this agreement. -/
def Holds (flow : UInt8) (agreement : Agreement) (own : Requester) : Prop :=
  own.state flow = .agreement ∧ own.agreement? flow = some agreement

namespace Sketch

variable {x : Sketch} {busy : Option Slot} {flow : UInt8} {agreement : Agreement}

/-- What a station has for a flow is what its access point has. -/
theorem Paired.holds_iff (paired : x.Paired flow busy) :
    Holds flow agreement x.negotiation.own ↔ busy = some ⟨.agreement, some agreement⟩ := by
  cases paired with
  | free apart inactive => exact ⟨fun holds => absurd holds.1 apart, fun none => by cases none⟩
  | agreed slot active runs linked =>
      have state : x.negotiation.own.state flow = .agreement := by
        rw [Requester.state, Slots.state, slot]
        rfl
      rw [Holds, Requester.agreement?, Slots.agreement?, slot]
      show _ ∧ some _ = some agreement ↔ _
      rw [Option.some.injEq, Option.some.injEq, Slot.mk.injEq, Option.some.injEq]
      exact ⟨fun holds => ⟨rfl, holds.2⟩, fun same => ⟨state, same.2⟩⟩

/-- What a station has, its chip runs. -/
theorem Paired.runs_of_holds (paired : x.Paired flow busy) (holds : Holds flow agreement x.negotiation.own) :
    x.negotiation.own.isInstalled flow = true ∧
      x.installed.get? (1, flow) = some agreement.chipBlob := by
  have same := paired.holds_iff.mp holds
  cases paired with
  | free => cases same
  | agreed slot active runs linked =>
      obtain rfl := Option.some.inj (Slot.mk.inj (Option.some.inj same)).2
      exact ⟨active, runs⟩

end Sketch

/-- There are flows from 0 to 7. -/
theorem flow_lt_of_holds {flow : UInt8} {agreement : Agreement} {own : Requester}
    (holds : Holds flow agreement own) : flow.toNat < 8 := by
  refine Nat.lt_of_not_le fun large => ?_
  have absent : own.agreement? flow = none := by
    simp [Requester.agreement?, Slots.agreement?, Slots.get?, large]
  rw [holds.2] at absent
  cases absent

namespace Network

/-- What may be asked of a station. -/
inductive Demand where
  | associate
  | disassociate
  | configure (r : SetupRequest)
  | teardown (flow : UInt8)
deriving DecidableEq, Repr

/-- A demand on one station of a network. -/
structure Request where
  index : Nat
  demand : Demand
deriving DecidableEq, Repr

/-- What a request does at once. -/
def ask (network : Network) (request : Request) : Network :=
  match request.demand with
  | .associate => (network.associate request.index).2
  | .disassociate => (network.disassociate request.index).2
  | .configure r => network.withWorld fun w => (w.configure (stationNode request.index) r).2
  | .teardown flow => network.withWorld fun w => (w.teardown (stationNode request.index) flow).2

/-- A request is made, and the network settles. -/
def act (network : Network) (request : Request) : Network := (network.ask request).settle

/-- No frame, no command and no task is in flight anywhere. -/
def AtRest (network : Network) : Prop :=
  network.world.ready = [] ∧ ∀ node ∈ network.world.nodes, node.Silent

/-- A station has an agreement for a flow exactly if the access point has the same one for it, and then
its chip runs it. -/
def EndsAgree (stations : Nat) (network : Network) : Prop :=
  ∃ accessPoint, network.accessPoint? = some accessPoint ∧
    ∀ index, index < stations → ∃ station, network.station index = .ok station ∧
      ∀ flow agreement,
        (Holds flow agreement station.interface.negotiation.own ↔
          accessPoint.interface.negotiation.stations.slot? ⟨station.interface.address, flow⟩ =
            some ⟨.agreement, some agreement⟩) ∧
        (Holds flow agreement station.interface.negotiation.own →
          station.interface.negotiation.own.isInstalled flow = true ∧
            station.chip.installed.get? (station.interface.vif, flow) = some agreement.chipBlob)

variable {network : Network} {settings : Settings} {stations index effort : Nat} {cast : Cast}

/-! ### A new network -/

/-- The sketch of each node of a new network. -/
def freshCast : Cast
  | 0 => ⟨0, accessPointAddress, .new .accessPoint, .resting, []⟩
  | index + 1 => ⟨1, stationAddress index, .new .station, .resting, []⟩

/-- The settings that a node starts with. -/
def role : Nat → Negotiation.Settings
  | 0 => .accessPoint
  | _ + 1 => .station

theorem new_of_node {n : Node} (found : (new settings).world.nodes[index]? = some n) :
    n = Node.new settings.node (.new (freshCast index).vif (nodeAddress index) (role index)) := by
  cases index with
  | zero => exact (Option.some.inj found).symm
  | succ number =>
      have listed : ((List.range settings.stations).map fun index =>
          Node.new settings.node (.new 1 (stationAddress index) .station))[number]? = some n := found
      rw [List.getElem?_map, Option.map_eq_some_iff] at listed
      obtain ⟨same, there, rfl⟩ := listed
      rw [List.getElem?_eq_some_iff] at there
      obtain ⟨_, rfl⟩ := there
      rw [List.getElem_range]
      rfl

theorem draws_new (inTime : settings.node.chip.latency < settings.node.channel.timeout)
    (keeps : settings.node.chip.loseAll = false) (index : Nat) :
    (Node.new settings.node (.new (freshCast index).vif (nodeAddress index) (role index))).Draws 0 false
      (freshCast index) where
  vif := rfl
  address := by cases index <;> rfl
  negotiation := by cases index <;> rfl
  duties := by cases index <;> rfl
  prompt := ⟨rfl, rfl, rfl, keeps, inTime, fun _ member => by cases member⟩
  shown := by cases index <;> exact ⟨⟨rfl, rfl⟩, rfl⟩
  installed := by cases index <;> rfl
  alarms := rfl
  marks isMarked := by cases isMarked

theorem calm_freshCast (few : stations ≤ 64) : Calm stations freshCast where
  access := by
    have room : (served stations).length ≤ Negotiation.Settings.accessPoint.maximumStations := by
      simpa [served, Negotiation.Settings.accessPoint] using few
    exact ⟨⟨rfl, Negotiation.serving_new room⟩, rfl⟩
  rests _ _ := ⟨⟨{}, {}, ⟨rfl, rfl, rfl⟩, rfl, .inl rfl⟩, rfl⟩
  paired _ _ flow _ := by
    refine .free ?_ (by simp [freshCast, Negotiation.new, Requester.isInstalled])
    show Slots.empty.state flow ≠ .agreement
    rw [Slots.state_empty]
    decide
  known _ _ linked := absurd linked parted_ne_joined

theorem settled_new (few : settings.stations ≤ 64)
    (inTime : settings.node.chip.latency < settings.node.channel.timeout)
    (keeps : settings.node.chip.loseAll = false) : (new settings).world.Settled settings.stations where
  exists_cast := ⟨freshCast, calm_freshCast few, rfl, fun index n found =>
    new_of_node found ▸ draws_new inTime keeps index⟩
  tidy := by
    refine ⟨fun index n found able => ?_, List.nodup_nil, fun _ member => by cases member⟩
    obtain rfl := new_of_node found
    cases able
  length := by simp [new]
  ready := rfl
  effort := World.effort_eq_zero fun node member => by
    obtain ⟨index, found⟩ := List.getElem?_of_mem member
    rw [new_of_node found]
    rfl

/-! ### What a request makes of a settled network -/

/-- A world that settles: it is calm, or one station has an exchange with the access point. -/
def Settles (stations : Nat) (w : World) : Prop :=
  ∃ cast, w.Stands stations 10 cast ∧
    (Calm stations cast ∨ ∃ number flow rank, number < stations ∧ flow.toNat < 8 ∧ rank ≤ 12 ∧
      Scene stations number flow false rank w.now cast)

theorem settled_of_settles (settles : Settles stations network.world) (few : stations ≤ 64) :
    network.settle.world.Settled stations := by
  obtain ⟨cast, stands, calm | ⟨number, flow, rank, here, small, low, scene⟩⟩ := settles
  · exact settled_of_calm (stands.follows_calm calm) few (stands.weight_lt few (Nat.zero_le 12))
  · exact settled_of_scene (stands.follows_scene scene low) few here small (stands.weight_lt few low)

/-- A request to a station that the network does not have changes nothing. -/
theorem ask_of_absent {request : Request} (length : network.world.nodes.length = stations + 1)
    (absent : stations ≤ request.index) : network.ask request = network := by
  have nobody : network.world.node? (stationNode request.index) = none := by
    rw [World.node?, stationNode, List.getElem?_eq_none_iff]
    omega
  obtain ⟨index, demand⟩ := request
  cases demand with
  | associate => simp only [ask, associate, station, nobody]
  | disassociate => simp only [ask, disassociate, station, nobody]
  | configure r => simp only [ask, withWorld, World.configure, nobody]
  | teardown flow =>
      simp only [ask, withWorld, World.teardown, World.onInterface, World.onNode, nobody,
        Option.map_none]

/-- After a request, a settled network settles again. -/
theorem settles_ask {request : Request} (settled : network.world.Settled stations) (few : stations ≤ 64)
    (negotiates : ∀ r, request.demand = .configure r → r.mode = .negotiate) :
    Settles stations (network.ask request).world := by
  obtain ⟨cast, calm, stands⟩ := settled.stands
  rcases Nat.lt_or_ge request.index stations with here | absent
  case inr =>
    rw [ask_of_absent settled.length absent]
    exact ⟨cast, stands.mono (Nat.zero_le 10), .inl calm⟩
  obtain ⟨index, demand⟩ := request
  cases demand with
  | associate =>
      obtain ⟨after, calm, stands⟩ := calm_associate stands calm here
      exact ⟨after, stands.mono (by decide), .inl calm⟩
  | disassociate =>
      obtain ⟨after, calm, stands⟩ := calm_disassociate stands calm few here
      exact ⟨after, stands.mono (by decide), .inl calm⟩
  | configure r =>
      obtain ⟨after, goesOn, stands⟩ := World.scene_configure settled few here (negotiates r rfl)
      exact ⟨after, stands.mono (by decide), goesOn.imp_right fun busy =>
        ⟨index, r.flow, 12, here, busy.1, Nat.le_refl 12, busy.2 _⟩⟩
  | teardown flow =>
      obtain ⟨after, goesOn, stands⟩ := World.scene_teardown stands calm few here flow
      exact ⟨after, stands.mono (by decide), goesOn.imp_right fun busy =>
        ⟨index, flow, 9, here, busy.1, by decide, busy.2 _⟩⟩

theorem settled_act {request : Request} (settled : network.world.Settled stations) (few : stations ≤ 64)
    (negotiates : ∀ r, request.demand = .configure r → r.mode = .negotiate) :
    (network.act request).world.Settled stations :=
  settled_of_settles (settles_ask settled few negotiates) few

/-! ### What holds in a settled network -/

theorem atRest_of_settled (settled : network.world.Settled stations) : network.AtRest := by
  refine ⟨settled.ready, fun node member => ?_⟩
  obtain ⟨index, found⟩ := List.getElem?_of_mem member
  exact settled.silent found

theorem endsAgree_of_settled (settled : network.world.Settled stations) : network.EndsAgree stations := by
  obtain ⟨cast, calm, stands⟩ := settled.stands
  obtain ⟨accessPoint, present⟩ := World.exists_node stands.length (Nat.succ_pos stations)
  refine ⟨accessPoint, present, fun index here => ?_⟩
  obtain ⟨station, found, node, address⟩ := station_of_stands stands calm here
  refine ⟨station, found, fun flow agreement => ?_⟩
  have draws := stands.draws.nodes _ station node
  obtain ⟨own, link, held, -⟩ := (calm.rests index here).exists_own
  have vif : station.interface.vif = 1 := draws.vif.trans held.vif
  have granted : accessPoint.interface.negotiation.stations.slot? ⟨stationAddress index, flow⟩ =
      some ⟨.agreement, some agreement⟩ ↔
        (cast 0).busy? index flow = some ⟨.agreement, some agreement⟩ := by
    rw [(stands.draws.nodes 0 accessPoint present).negotiation, Sketch.busy?,
      StationTable.busy?_eq_some_iff]
    exact ⟨fun same => ⟨same, by simp⟩, fun busy => busy.1⟩
  rw [draws.negotiation, vif, address, granted]
  rcases Nat.lt_or_ge flow.toNat 8 with small | large
  · have paired := calm.paired index here flow small
    refine ⟨paired.holds_iff, fun holds => ?_⟩
    obtain ⟨active, runs⟩ := paired.runs_of_holds holds
    exact ⟨active, (congrArg (Host.Chip.Table.get? (1, flow)) draws.installed).trans runs⟩
  · have notHeld : ¬Holds flow agreement (cast (index + 1)).negotiation.own := fun holds =>
      absurd (flow_lt_of_holds holds) (Nat.not_lt.mpr large)
    refine ⟨⟨fun holds => absurd holds notHeld, fun busy => ?_⟩, fun holds => absurd holds notHeld⟩
    exact absurd (StationTable.flow_lt_of_slot? (StationTable.busy?_eq_some_iff.mp busy).1)
      (Nat.not_lt.mpr large)

/-- Whatever is asked of the stations, one request after the other, after each of them nothing is in
flight any more, and the access point and every station agree on every flow. All confirms take the same
time, which is any below the timeout, and workers run in the order in which they are woken. -/
theorem endsAgree_reached (settings : Settings) (few : settings.stations ≤ 64)
    (inTime : settings.node.chip.latency < settings.node.channel.timeout)
    (keeps : settings.node.chip.loseAll = false) (requests : List Request)
    (negotiates : ∀ request ∈ requests, ∀ r, request.demand = .configure r → r.mode = .negotiate) :
    ∀ network ∈ Runs.reached act (new settings) requests,
      network.AtRest ∧ network.EndsAgree settings.stations := by
  have kept (network : Network) (request : Request) (settled : network.world.Settled settings.stations)
      (negotiates : ∀ r, request.demand = .configure r → r.mode = .negotiate) :
      (network.act request).world.Settled settings.stations := settled_act settled few negotiates
  have settled := Runs.invariant_of_steps (fun network : Network => network.world.Settled settings.stations)
    kept (settled_new few inTime keeps) fun step member => negotiates _ (Runs.mem_of_mem_steps member).2
  exact fun network member => ⟨atRest_of_settled (settled network member),
    endsAgree_of_settled (settled network member)⟩

/-- Two stations join and get agreements, and one gives its own up again. -/
theorem endsAgree_joined :
    let asks : SetupRequest := { flow := 3, interval := .micros 100000, duration := 8192 }
    let requests : List Request :=
      [⟨0, .associate⟩, ⟨0, .configure asks⟩, ⟨1, .associate⟩, ⟨1, .configure asks⟩, ⟨0, .teardown 3⟩]
    let last := requests.foldl act (new { stations := 2 })
    (last.AtRest ∧ last.EndsAgree 2) ∧
      (last.station 0).toOption.map (·.interface.negotiation.own.state 3) = some .noAgreement ∧
      (last.station 1).toOption.map (·.interface.negotiation.own.state 3) = some .agreement := by
  intro asks requests last
  have negotiates : ∀ request ∈ requests, ∀ r, request.demand = .configure r → r.mode = .negotiate := by
    intro request member r same
    simp only [requests, List.mem_cons, List.not_mem_nil, or_false] at member
    rcases member with rfl | rfl | rfl | rfl | rfl <;> cases same <;> rfl
  exact ⟨endsAgree_reached { stations := 2 } (by decide) (by decide) rfl requests negotiates last
    (Runs.foldl_mem_reached _ _), by decide +kernel, by decide +kernel⟩

end Network

end TargetWakeTime.Simulation
