import TargetWakeTime.Proofs.Agreement.LocalRequest
import TargetWakeTime.Proofs.Association
import TargetWakeTime.Proofs.Simulation.Consultation
import TargetWakeTime.Proofs.Simulation.Settling

/-!
Contract: what a request to one station makes of a settled network.

Owns:
- worlds that are as a cast says with at most some effort left, and how operations on an interface or
  on its link change them;
- for each kind of request, the scene that it begins, or that the network stays calm;
- that the weight of such a scene is small.

Associating and disassociating act on both ends at once and begin no exchange. A request that is
refused changes nothing.
-/

namespace TargetWakeTime.Simulation

open Network (accessPointAddress stationAddress)

/-- The link of a sketch changes. -/
def Sketch.relink (f : Association → Association) (x : Sketch) : Sketch :=
  { x with negotiation := { x.negotiation with link := f x.negotiation.link } }

theorem Node.Draws.relink {n : Node} {x : Sketch} {now : Nat} {marked : Bool}
    (draws : n.Draws now marked x) (f : Association → Association) :
    ({ n with interface := n.interface.withLink f } : Node).Draws now marked (x.relink f) :=
  { draws with
    negotiation := congrArg (fun m : Negotiation => { m with link := f m.link }) draws.negotiation }

namespace World

/-- A world with this cast, unmarked, and with at most this effort left. -/
structure Stands (stations effort : Nat) (cast : Cast) (w : World) : Prop where
  draws : w.Draws (fun _ => false) cast
  tidy : w.Tidy fun _ => False
  length : w.nodes.length = stations + 1
  effort : w.effort ≤ effort

variable {w : World} {stations effort index number rank : Nat} {cast : Cast} {n m : Node} {flow : UInt8}
  {y : Sketch}

theorem Settled.stands (settled : w.Settled stations) :
    ∃ cast, Calm stations cast ∧ w.Stands stations 0 cast := by
  obtain ⟨cast, calm, drawn⟩ := settled.exists_cast
  exact ⟨cast, calm, drawn, settled.tidy, settled.length, Nat.le_of_eq settled.effort⟩

/-- A world with little effort left weighs little. -/
theorem Stands.weight_lt (stands : w.Stands stations 10 cast) (few : stations ≤ 64) (low : rank ≤ 12) :
    w.weight rank < 900000 := by
  have turns := stands.tidy.length_ready
  have effort := stands.effort
  have product : (w.nodes.length + 1) * (4 * rank + w.effort) ≤ 66 * 58 :=
    Nat.mul_le_mul (by rw [stands.length]; omega) (by omega)
  rw [stands.length] at turns
  rw [weight]
  omega

theorem Stands.follows_scene (stands : w.Stands stations effort cast)
    (scene : Scene stations number flow false rank w.now cast) (low : rank ≤ 12) :
    w.Follows (marks number false) (Scene stations number flow false) (stations + 1) 12
      (w.weight rank) where
  exists_cast := ⟨rank, cast, scene, stands.draws, low, rfl⟩
  tidy := stands.tidy
  length := stands.length

theorem Stands.follows_calm (stands : w.Stands stations effort cast) (calm : Calm stations cast) :
    w.Follows (fun _ => false) (fun rank _ cast => rank = 0 ∧ Calm stations cast) (stations + 1) 0
      (w.weight 0) where
  exists_cast := ⟨0, cast, ⟨rfl, calm⟩, stands.draws, Nat.le_refl 0, rfl⟩
  tidy := stands.tidy
  length := stands.length

theorem Stands.mono {more : Nat} (stands : w.Stands stations effort cast) (below : effort ≤ more) :
    w.Stands stations more cast :=
  { stands with effort := Nat.le_trans stands.effort below }

/-- A node is put in place. -/
theorem Stands.putNode (stands : w.Stands stations effort cast) (more : Nat)
    (found : w.nodes[index]? = some n) (draws : m.Draws w.now false y)
    (bound : m.interface.worker.effort ≤ n.interface.worker.effort + more) :
    (w.putNode index m).Stands stations (effort + more) (cast.set index y) where
  draws := stands.draws.putNode (lt_of_node found) draws
  tidy := (stands.tidy.putNode (lt_of_node found)).mono fun _ sleeps _ => sleeps.1
  length := length_putNode.trans stands.length
  effort := by
    have change := effort_putNode (m := m) found
    have before := stands.effort
    omega

/-- A node that rests runs an operation that leaves at most one task. -/
theorem Stands.operate {α : Type} (stands : w.Stands stations effort cast)
    (found : w.nodes[index]? = some n) (rests : (cast index).activity = .resting)
    (operation : Negotiation → α × Negotiation)
    (alone : (operation (cast index).negotiation).2.tasks.length ≤ 1) :
    (w.putNode index { n with interface := (n.interface.operate operation).2 }).Stands stations (effort + 2)
      (cast.set index ((cast index).after (operation (cast index).negotiation).2.takeTasks)) := by
  obtain ⟨draws, bound⟩ := (stands.draws.nodes index n found).operated operation rests alone
  exact stands.putNode 2 found draws bound

theorem Stands.operated {α : Type} (stands : w.Stands stations effort cast)
    (here : index < stations + 1) (rests : (cast index).activity = .resting)
    (operation : Negotiation → α × Negotiation)
    (alone : (operation (cast index).negotiation).2.tasks.length ≤ 1) :
    (w.modifyInterface index fun i => (i.operate operation).2).Stands stations (effort + 2)
      (cast.set index ((cast index).after (operation (cast index).negotiation).2.takeTasks)) := by
  obtain ⟨n, found⟩ := exists_node stands.length here
  rw [World.modifyInterface, modifyNode_of_node found]
  exact stands.operate found rests operation alone

/-- A node that rests runs an operation that leaves no task. -/
theorem Stands.operated_quietly {α : Type} {left : Negotiation}
    (stands : w.Stands stations effort cast) (here : index < stations + 1)
    (rests : (cast index).activity = .resting) (operation : Negotiation → α × Negotiation)
    (taken : (operation (cast index).negotiation).2.takeTasks = ([], left)) :
    (w.modifyInterface index fun i => (i.operate operation).2).Stands stations (effort + 2)
      (cast.set index ((cast index).after ([], left))) := by
  have tasks : (operation (cast index).negotiation).2.tasks = [] := congrArg (·.1) taken
  have result := stands.operated here rests operation (by rw [tasks]; exact Nat.zero_le 1)
  rwa [taken] at result

/-- A link changes, and no worker notices. -/
theorem Stands.relink (stands : w.Stands stations effort cast) (here : index < stations + 1)
    (f : Association → Association) :
    (w.modifyInterface index (·.withLink f)).Stands stations effort
      (cast.set index ((cast index).relink f)) := by
  obtain ⟨n, found⟩ := exists_node stands.length here
  rw [modifyInterface, modifyNode_of_node found]
  exact stands.putNode 0 found ((stands.draws.nodes index n found).relink f) (Nat.le_refl _)

end World

/-! ### Joining and leaving -/

namespace Sketch

variable {x a : Sketch} {number : Nat} {own : Requester} {link : Association} {queued : List Event}
  {stations : List MacAddress} {flow : UInt8}

theorem Station.relink (station : x.Station number own link queued) (f : Association → Association) :
    (x.relink f).Station number own (f link) queued where
  vif := station.vif
  address := station.address
  negotiation := by
    rw [Sketch.relink, station.negotiation]
    rfl

theorem Waits.relink (waits : a.Waits stations) {f : Association → Association}
    (unlinked : (f a.negotiation.link).bssid = a.negotiation.link.bssid) :
    (a.relink f).Waits stations where
  address := waits.address
  serving := waits.serving.relink (unlinked.trans waits.serving.unlinked)
  still := waits.still

/-- A new link to the access point does no harm to a flow. -/
theorem Paired.relink {busy : Option Slot} (paired : x.Paired flow busy) {f : Association → Association}
    (joins : f x.negotiation.link = joined) : (x.relink f).Paired flow busy := by
  cases paired with
  | free apart inactive => exact .free apart inactive
  | agreed slot active runs => exact .agreed slot active runs joins

end Sketch

theorem accessPoint?_joined : joined.accessPoint? = some accessPointAddress := by decide

theorem parted_ne_joined : ({} : Association) ≠ joined := by decide

namespace Calm

variable {stations number : Nat} {cast after : Cast} {y b : Sketch}

/-- A calm network stays calm if one station and the access point change, and are at rest and paired
again. -/
theorem replaced (calm : Calm stations cast) (station : y.Rests number) (access : b.Waits (served stations))
    (paired : ∀ flow : UInt8, flow.toNat < 8 → y.Paired flow (b.busy? number flow))
    (others : ∀ i, i < stations → i ≠ number → ∀ flow, b.busy? i flow = (cast 0).busy? i flow)
    (known : ∀ i, i < stations → (if i = number then y.negotiation.link = joined else
      (cast 0).negotiation.link.knows (stationAddress i) = true) →
        b.negotiation.link.knows (stationAddress i) = true)
    (own : after (number + 1) = y) (own0 : after 0 = b)
    (kept : ∀ i, i < stations → i ≠ number → after (i + 1) = cast (i + 1)) : Calm stations after where
  access := own0 ▸ access
  rests i there := by
    by_cases same : i = number
    · rw [same, own]
      exact station
    · rw [kept i there same]
      exact calm.rests i there
  paired i there flow small := by
    rw [own0]
    by_cases same : i = number
    · rw [same, own]
      exact paired flow small
    · rw [kept i there same, others i there same]
      exact calm.paired i there flow small
  known i there link := by
    rw [own0]
    refine known i there ?_
    by_cases same : i = number
    · rw [if_pos same, ← own, ← same]
      exact link
    · rw [kept i there same] at link
      rw [if_neg same]
      exact calm.known i there link

end Calm

theorem stationAddress_ne {stations i number : Nat} (few : stations ≤ 64) (there : i < stations)
    (here : number < stations) (apart : i ≠ number) : stationAddress i ≠ stationAddress number :=
  fun same => apart (Nat.succ.inj (nodeAddress_injective (by omega) (by omega) same))

namespace Network

variable {network : Network} {stations effort index : Nat} {cast : Cast}

/-- The station that a request is about, if the network has it. -/
theorem station_of_stands (stands : network.world.Stands stations effort cast) (calm : Calm stations cast)
    (here : index < stations) :
    ∃ node, network.station index = .ok node ∧ network.world.nodes[index + 1]? = some node ∧
      node.interface.address = stationAddress index := by
  obtain ⟨node, found⟩ := World.exists_node stands.length (Nat.succ_lt_succ here)
  obtain ⟨own, link, station, -⟩ := (calm.rests index here).exists_own
  refine ⟨node, ?_, found, (stands.draws.nodes _ node found).address.trans station.address⟩
  rw [Network.station, World.node?, stationNode, found]

/-- Joining keeps a network calm. -/
theorem calm_associate (stands : network.world.Stands stations effort cast) (calm : Calm stations cast)
    (here : index < stations) :
    ∃ after, Calm stations after ∧ (network.associate index).2.world.Stands stations effort after := by
  obtain ⟨node, present, found, address⟩ := station_of_stands stands calm here
  obtain ⟨own, link, station, empty, links⟩ := (calm.rests index here).exists_own
  have joins : link.associate accessPointAddress = joined := by
    rcases links with rfl | rfl
    · rfl
    · decide
  have held : (cast (index + 1)).negotiation.link = link := by
    rw [station.negotiation]
    rfl
  let y := (cast (index + 1)).relink (·.associate accessPointAddress)
  let b := (cast 0).relink (·.addPeer (stationAddress index))
  refine ⟨(cast.set (index + 1) y).set 0 b, ?_, ?_⟩
  · refine calm.replaced
      ⟨⟨own, _, station.relink (·.associate accessPointAddress), empty, .inr joins⟩,
        (calm.rests index here).still⟩
      (calm.access.relink Association.bssid_addPeer)
      (fun flow small => (calm.paired index here flow small).relink (held ▸ joins))
      (fun _ _ _ _ => rfl) (fun i there known => Association.knows_addPeer.mpr ?_) Cast.set_self rfl fun i _ apart => ?_
    · by_cases same : i = index
      · exact .inl (congrArg stationAddress same)
      · rw [if_neg same] at known
        exact .inr known
    · exact Cast.set_of_ne (mt Nat.succ.inj apart)
  · rw [associate, present]
    dsimp only
    rw [address]
    exact (stands.relink (Nat.succ_lt_succ here) (·.associate accessPointAddress)).relink
      (Nat.succ_pos stations) (·.addPeer (stationAddress index))

/-- What a station forgets that leaves: nothing of it is left that was agreed on. -/
theorem exists_left {x : Sketch} {busy : UInt8 → Option Slot} {own : Requester} {link : Association}
    (station : x.Station index own link []) (empty : own.commands = {})
    (links : link = {} ∨ link = joined)
    (paired : ∀ flow : UInt8, flow.toNat < 8 → x.Paired flow (busy flow)) :
    ∃ left : Requester, (x.negotiation.removeStation accessPointAddress).2 = .asking left link [] ∧
      left.commands = {} ∧
      ∀ flow : UInt8, flow.toNat < 8 → left.state flow ≠ .agreement ∧ left.isInstalled flow = false := by
  rw [station.negotiation]
  rcases links with rfl | rfl
  · refine ⟨own, Negotiation.removeStation_of_parted rfl, empty, fun flow small => ?_⟩
    have parted : x.negotiation.link ≠ joined := by
      rw [station.negotiation]
      exact parted_ne_joined
    have free := ((paired flow small).unbusy (.inr parted)).2
    rwa [station.negotiation] at free
  · refine ⟨own.reset (some accessPointAddress), Negotiation.removeStation_of_joined rfl, ?_,
      fun flow _ => ⟨?_, ?_⟩⟩
    · rw [Requester.reset, empty]
      rfl
    · show Slots.empty.state flow ≠ .agreement
      rw [Slots.state_empty]
      decide
    · simp [Requester.reset, Requester.isInstalled]

/-- A calm network stays calm if one station has parted, and nothing of it is left at either end. -/
theorem calm_parted {after : Cast} {x a : Sketch} (calm : Calm stations cast) (few : stations ≤ 64)
    (here : index < stations) (station : x.Rests index) (access : a.Waits (served stations))
    (parted : x.negotiation.link = {})
    (nothing : ∀ flow : UInt8, flow.toNat < 8 →
      x.negotiation.own.state flow ≠ .agreement ∧ x.negotiation.own.isInstalled flow = false)
    (gone : ∀ flow, a.busy? index flow = none)
    (others : ∀ key, key.address ≠ stationAddress index →
      a.negotiation.stations.busy? key = (cast 0).negotiation.stations.busy? key)
    (link : a.negotiation.link = (cast 0).negotiation.link.removePeer (stationAddress index))
    (own : after (index + 1) = x) (own0 : after 0 = a)
    (kept : ∀ i, i < stations → i ≠ index → after (i + 1) = cast (i + 1)) : Calm stations after := by
  have apart {i : Nat} (there : i < stations) (other : i ≠ index) :
      stationAddress i ≠ stationAddress index := stationAddress_ne few there here other
  refine calm.replaced station access (fun flow small => ?_)
    (fun i there other flow => others ⟨stationAddress i, flow⟩ (apart there other))
    (fun i there known => ?_) own own0 kept
  · rw [gone flow]
    exact .free (nothing flow small).1 (nothing flow small).2
  · rw [link]
    by_cases same : i = index
    · rw [if_pos same, parted] at known
      exact absurd known parted_ne_joined
    · rw [if_neg same] at known
      exact Association.knows_removePeer.mpr ⟨known, apart there same⟩

/-- Leaving keeps a network calm. -/
theorem calm_disassociate (stands : network.world.Stands stations effort cast) (calm : Calm stations cast)
    (few : stations ≤ 64) (here : index < stations) :
    ∃ after, Calm stations after ∧
      (network.disassociate index).2.world.Stands stations (effort + 4) after := by
  obtain ⟨node, present, found, address⟩ := station_of_stands stands calm here
  obtain ⟨own, link, station, empty, links⟩ := (calm.rests index here).exists_own
  obtain ⟨m, taken, serving, sameLink, others, gone⟩ :=
    calm.access.serving.removeStation (stationAddress index)
  obtain ⟨left, removed, noCommands, nothing⟩ := exists_left station empty links (calm.paired index here)
  have parted : link.disassociate = {} := by
    rcases links with rfl | rfl <;> decide
  let a : Sketch := (cast 0).after ([], m)
  let x : Sketch := (cast (index + 1)).after ([], .asking left link [])
  have stays : x.Station index left link [] := ⟨station.vif, station.address, rfl⟩
  have waits : a.Waits (served stations) := ⟨⟨calm.access.address, serving⟩, rfl⟩
  have first := stands.operated_quietly (Nat.succ_pos stations) calm.access.still
    (·.removeStation (stationAddress index)) taken
  have second := first.operated_quietly (Nat.succ_lt_succ here) (calm.rests index here).still
    (·.removeStation accessPointAddress) (congrArg Negotiation.takeTasks removed)
  have third := (second.relink (Nat.succ_lt_succ here) (·.disassociate)).relink
    (Nat.succ_pos stations) (·.removePeer (stationAddress index))
  refine ⟨_, ?_, by rw [disassociate, present]; dsimp only; rw [address]; exact third⟩
  refine calm_parted calm few here (x := x.relink (·.disassociate))
    (a := a.relink (·.removePeer (stationAddress index)))
    ⟨⟨left, _, stays.relink (·.disassociate), noCommands, .inl parted⟩, rfl⟩ (waits.relink rfl) parted
    nothing gone others (congrArg (·.removePeer (stationAddress index)) sameLink) ?_ rfl
    fun i _ other => ?_
  · show (Cast.set (index + 1) _ _) (index + 1) = _
    rw [Cast.set_self, Cast.set_self]
    rfl
  · show (Cast.set (index + 1) _ _) (i + 1) = _
    rw [Cast.set_of_ne (mt Nat.succ.inj other), Cast.set_of_ne (mt Nat.succ.inj other)]
    rfl

end Network

/-! ### Tearing down -/

/-- An operation that changes nothing and defers nothing leaves a sketch as it is. -/
theorem Sketch.after_unchanged {x : Sketch} {m : Negotiation} (held : x.negotiation = m)
    (rests : x.activity = .resting) (quiet : m.tasks = []) : x.after m.takeTasks = x := by
  obtain ⟨vif, address, negotiation, activity, installed⟩ := x
  obtain rfl : negotiation = m := held
  obtain rfl : activity = .resting := rests
  obtain ⟨settings, requester, responder, stations, schedule, events, answers, own, link, tasks⟩ :=
    negotiation
  obtain rfl : tasks = [] := quiet
  rfl

namespace World

variable {w : World} {stations effort index number rank : Nat} {cast : Cast} {n m : Node} {flow : UInt8}
  {y : Sketch}

/-- A teardown that need not ask the chip is an operation on the interface. -/
theorem teardown_eq (found : w.nodes[index]? = some n)
    (framed : (n.interface.negotiation.beginTeardown flow).1 ≠ .ok true) :
    (w.teardown index flow).2 =
      w.putNode index { n with interface := (n.interface.operate (·.beginTeardown flow)).2 } := by
  have result : (n.interface.operate (·.beginTeardown flow)).1 =
      (n.interface.negotiation.beginTeardown flow).1 := rfl
  unfold teardown
  rw [onInterface, onNode, node?, found]
  dsimp only [Option.map_some]
  unfold Interface.teardown
  generalize n.interface.operate (·.beginTeardown flow) = after at result
  obtain ⟨outcome, interface⟩ := after
  cases outcome with
  | error => rfl
  | ok asks =>
      cases asks with
      | false => rfl
      | true => exact absurd result.symm framed

/-- A teardown of a flow that the chip runs begins an exchange. -/
theorem scene_beginTeardown {own : Requester} (calm : Calm stations cast) (few : stations ≤ 64)
    (here : number < stations) (small : flow.toNat < 8)
    (station : (cast (number + 1)).Station number own joined []) (empty : own.commands = {})
    (active : own.isInstalled flow = true) (now : Nat) :
    Scene stations number flow false 9 now
      (cast.set (number + 1) ((cast (number + 1)).after
        ((Negotiation.asking own joined []).beginTeardown flow).2.takeTasks)) := by
  rw [Negotiation.beginTeardown_of_joined small active accessPoint?_joined]
  obtain ⟨⟨slot, busy⟩, installed, -⟩ :=
    (calm.paired number here flow small).busy (by rw [station.negotiation]; exact active)
  let left := (own.setState flow .noAgreement).setAgreement flow none
  have stays : ((cast (number + 1)).after ([.sendTeardown accessPointAddress flow],
      .asking left joined [])).Station number left joined [] := ⟨station.vif, station.address, rfl⟩
  have apart : left.state flow ≠ .agreement := by
    rw [Requester.state, Slots.state, Requester.slot?_ended small]
    decide
  have elsewhere : (cast (number + 1)).Elsewhere flow _ :=
    station.elsewhere stays
      ((Requester.elsewhere_setState _ own).trans (Requester.elsewhere_setAgreement _ _)) rfl
  exact (calm.scene here small false now).replaced few here (fun isMarked => by cases isMarked)
    (.talks (.leaves stays rfl apart empty installed calm.access busy)) elsewhere (.refl _ _ _)
    Cast.set_self rfl fun i _ other => Cast.set_of_ne (mt Nat.succ.inj other)

/-- A teardown begins an exchange, or is refused and changes nothing. -/
theorem scene_teardown (stands : w.Stands stations effort cast) (calm : Calm stations cast)
    (few : stations ≤ 64) (here : number < stations) (flow : UInt8) :
    ∃ after, (Calm stations after ∨ flow.toNat < 8 ∧ ∀ now, Scene stations number flow false 9 now after) ∧
      (w.teardown (number + 1) flow).2.Stands stations (effort + 2) after := by
  obtain ⟨n, found⟩ := exists_node stands.length (Nat.succ_lt_succ here)
  have rests := calm.rests number here
  obtain ⟨own, link, station, empty, links⟩ := rests.exists_own
  have held : n.interface.negotiation = .asking own link [] :=
    (stands.draws.nodes _ n found).negotiation.trans station.negotiation
  by_cases runs : flow.toNat < 8 ∧ own.isInstalled flow = true
  · obtain ⟨small, active⟩ := runs
    have linked := ((calm.paired number here flow small).busy
      (by rw [station.negotiation]; exact active)).2.2
    obtain rfl : link = joined := by
      rw [station.negotiation] at linked
      exact linked
    have begun := Negotiation.beginTeardown_of_joined small active accessPoint?_joined
    have result := stands.operate found rests.still (·.beginTeardown flow) (by
      rw [station.negotiation, begun]
      exact Nat.le_refl 1)
    rw [station.negotiation] at result
    refine ⟨_, .inr ⟨small, scene_beginTeardown calm few here small station empty active⟩, ?_⟩
    rw [teardown_eq found (by rw [held, begun]; simp)]
    exact result
  · have absent : flow.toNat < 8 → own.isInstalled flow = false := fun small =>
      Bool.eq_false_iff.mpr fun active => runs ⟨small, active⟩
    obtain ⟨same, error, refused⟩ :
        ((Negotiation.asking own link []).beginTeardown flow).2 = .asking own link [] ∧
          ∃ error, ((Negotiation.asking own link []).beginTeardown flow).1 = .error error :=
      Negotiation.beginTeardown_of_absent absent
    have result := stands.operate found rests.still (·.beginTeardown flow) (by
      rw [station.negotiation, same]
      exact Nat.zero_le 1)
    rw [station.negotiation, same, Sketch.after_unchanged station.negotiation rests.still rfl,
      Cast.set_same] at result
    refine ⟨cast, .inl calm, ?_⟩
    rw [teardown_eq found (by rw [held, refused]; simp)]
    exact result

/-! ### Configuring -/

/-- Nothing happens at a node that rests and cannot go on. -/
theorem silent_of_rest {x : Sketch} {now : Nat} {marked : Bool} (draws : n.Draws now marked x)
    (rests : x.activity = .resting) (still : n.canWork now = false) : n.Silent := by
  have shown := draws.shown
  rw [rests] at shown
  obtain ⟨noWork, -⟩ := Bool.or_eq_false_iff.mp still
  exact ⟨by simpa using noWork, shown.1, shown.2, draws.alarms⟩

/-- In a settled world, nothing happens anywhere. -/
theorem Settled.silent (settled : w.Settled stations) (found : w.nodes[index]? = some n) : n.Silent := by
  obtain ⟨cast, calm, drawn⟩ := settled.exists_cast
  have here := lt_of_node found
  rw [settled.length] at here
  exact silent_of_rest (drawn.nodes index n found) (calm.still index here)
    (settled.tidy.still settled.ready found)

/-- A node that has asked the chip, and is silent again, is still as its sketch says. -/
theorem draws_of_silent {time : Nat} {x : Sketch} (draws : n.Draws time false x)
    (rests : x.activity = .resting) (silent : m.Silent) (prompt : m.bus.Prompt)
    (interface : m.interface = n.interface)
    (installed : m.bus.link.installed = n.bus.link.installed) (now : Nat) : m.Draws now false x where
  vif := interface ▸ draws.vif
  address := interface ▸ draws.address
  negotiation := interface ▸ draws.negotiation
  duties := interface ▸ draws.duties
  prompt := prompt
  shown := by
    rw [rests]
    exact ⟨silent.idle, silent.empty⟩
  installed := installed.trans draws.installed
  alarms := silent.alarms
  marks isMarked := by cases isMarked

/-- Where all nodes are silent and no turn is coming, all is tidy. -/
theorem tidy_of_silent (quiet : ∀ (index : Nat) (n : Node), w.nodes[index]? = some n → n.Silent)
    (ready : w.ready = []) : w.Tidy fun _ => False where
  awake index n found able := absurd able (by
    rw [(quiet index n found).canWork]
    exact Bool.false_ne_true)
  once := by
    rw [ready]
    exact List.nodup_nil
  inside index member := by
    rw [ready] at member
    cases member

/-- Where one node may have changed, but not its interface, the interfaces are as before. -/
theorem Beside.interfaces {v : World} (beside : Beside index w m v) (found : w.nodes[index]? = some n)
    (interface : m.interface = n.interface) :
    v.nodes.map (·.interface) = w.nodes.map (·.interface) := by
  refine List.ext_getElem? fun other => ?_
  rw [List.getElem?_map, List.getElem?_map, beside.nodes other]
  split
  case isTrue same =>
    rw [same, found]
    exact congrArg some interface
  case isFalse => rfl

/-- Asking the chip leaves a settled world as its cast says. -/
theorem Stands.consulted {v : World} (stands : w.Stands stations effort cast) (settled : w.Settled stations)
    (rests : ∀ i, i < stations + 1 → (cast i).activity = .resting)
    (found : w.nodes[index]? = some n) (beside : Beside index w m v) (silent : m.Silent)
    (prompt : m.bus.Prompt) (interface : m.interface = n.interface)
    (installed : m.bus.link.installed = n.bus.link.installed) : v.Stands stations effort cast := by
  have within {other : Nat} {node : Node} (there : w.nodes[other]? = some node) : other < stations + 1 :=
    settled.length ▸ lt_of_node there
  have quiet (other : Nat) (node : Node) (there : v.nodes[other]? = some node) : node.Silent := by
    rcases beside.same (fun _ _ _ => settled.silent) there with ⟨-, rfl⟩ | silent
    · exact silent
    · exact silent
  have interfaces := beside.interfaces found interface
  refine ⟨⟨beside.air.trans stands.draws.air, fun other node there => ?_⟩,
    tidy_of_silent quiet beside.ready, ?_, ?_⟩
  · have silentNode := quiet other node there
    rw [beside.nodes other] at there
    split at there
    case isTrue same =>
      obtain rfl := Option.some.inj there
      rw [same]
      exact draws_of_silent (stands.draws.nodes index n found) (rests index (within found)) silent prompt
        interface installed v.now
    case isFalse =>
      have draws := stands.draws.nodes other node there
      exact draws_of_silent draws (rests other (within there)) silentNode draws.prompt rfl rfl v.now
  · have lengths := congrArg List.length interfaces
    rw [List.length_map, List.length_map] at lengths
    exact lengths.trans stands.length
  · have efforts := congrArg (fun interfaces : List Interface =>
      (interfaces.map (·.worker.effort)).sum) interfaces
    simp only [List.map_map] at efforts
    exact Nat.le_trans (Nat.le_of_eq efforts) stands.effort

/-- A request is under consideration once it was sent or kept. -/
theorem isConsidering_considering {command : SetupCommand} :
    (Negotiation.considering command).isConsidering = true := by
  cases command <;> rfl

/-- A request that is sent begins an exchange. -/
theorem scene_sendRequest {own : Requester} {agreement : Agreement} {command : SetupCommand}
    (calm : Calm stations cast) (few : stations ≤ 64) (here : number < stations)
    (small : agreement.flow.toNat < 8) (legible : agreement.Legible) (requests : command.isRequest = true)
    (station : (cast (number + 1)).Station number own joined []) (empty : own.commands = {})
    (inactive : own.isInstalled agreement.flow = false) (now : Nat) :
    Scene stations number agreement.flow false 12 now
      (cast.set (number + 1) ((cast (number + 1)).after
        ((Negotiation.asking own joined []).sendRequest agreement command).2.takeTasks)) := by
  have sent : (Negotiation.asking own joined []).sendRequest agreement command = _ :=
    Negotiation.sendRequest_of_joined accessPoint?_joined requests
  rw [sent]
  let asks := ({ own with dialogToken := own.dialogToken + 1 }).setState agreement.flow
    (Negotiation.considering command)
  have free : (cast 0).busy? number agreement.flow = none :=
    ((calm.paired number here agreement.flow small).unbusy
      (.inl (by rw [station.negotiation]; exact inactive))).1
  have stays : ((cast (number + 1)).after
      ([.sendSetup accessPointAddress (own.dialogToken + 1) (agreement.withCommand command).element
        agreement.flow], .asking asks joined [])).Station number asks joined [] :=
    ⟨station.vif, station.address, rfl⟩
  refine (calm.scene here small false now).replaced few here (fun isMarked => by cases isMarked)
    (.talks (.asks ⟨stays, ?_, inactive, empty⟩ rfl (legible.withCommand command) requests rfl
      calm.access free)) ?_ (.refl _ _ _) Cast.set_self rfl
    fun i _ other => Cast.set_of_ne (mt Nat.succ.inj other)
  · rw [Requester.state_setState small]
    exact isConsidering_considering
  · exact station.elsewhere stays (Requester.elsewhere_setState _ _) rfl

/-- A request that is kept for later changes nothing between the two. -/
theorem calm_sendRequest {own : Requester} {agreement : Agreement} {command : SetupCommand}
    (calm : Calm stations cast) (here : number < stations)
    (small : agreement.flow.toNat < 8) (requests : command.isRequest = true)
    (station : (cast (number + 1)).Station number own {} []) (empty : own.commands = {}) :
    Calm stations
      (cast.set (number + 1) ((cast (number + 1)).after
        ((Negotiation.asking own {} []).sendRequest agreement command).2.takeTasks)) := by
  have kept : (Negotiation.asking own {} []).sendRequest agreement command = _ :=
    Negotiation.sendRequest_of_parted rfl requests
  rw [kept]
  let stores := ({ own with stored := some (.setup .zero (agreement.withCommand command)) }).setState
    agreement.flow (Negotiation.considering command)
  have stays : ((cast (number + 1)).after ([], .asking stores {} [])).Station number stores {} [] :=
    ⟨station.vif, station.address, rfl⟩
  have elsewhere : (cast (number + 1)).Elsewhere agreement.flow
      ((cast (number + 1)).after ([], .asking stores {} [])) :=
    station.elsewhere stays (Requester.elsewhere_setState _ _) rfl
  refine calm.replaced ⟨⟨stores, {}, stays, empty, .inl rfl⟩, rfl⟩ calm.access (fun flow flowSmall => ?_)
    (fun _ _ _ _ => rfl) (fun i there known => ?_) Cast.set_self rfl
    fun i _ other => Cast.set_of_ne (mt Nat.succ.inj other)
  · have paired := calm.paired number here flow flowSmall
    by_cases same : flow = agreement.flow
    · have parted : (cast (number + 1)).negotiation.link ≠ joined := by
        rw [station.negotiation]
        exact parted_ne_joined
      obtain ⟨free, -, inactive⟩ := paired.unbusy (.inr parted)
      rw [free]
      refine .free ?_ (by rw [station.negotiation] at inactive; exact inactive)
      show stores.state flow ≠ .agreement
      rw [same, Requester.state_setState small]
      cases command <;> decide
    · exact paired.elsewhere elsewhere flowSmall same
  · by_cases same : i = number
    · rw [if_pos same] at known
      exact absurd known parted_ne_joined
    · rw [if_neg same] at known
      exact known

/-- A configuration begins an exchange, or is kept for later, or is refused and changes nothing. -/
theorem scene_configure (settled : w.Settled stations) (few : stations ≤ 64) (here : number < stations)
    {r : SetupRequest} (negotiates : r.mode = .negotiate) :
    ∃ after, (Calm stations after ∨
        r.flow.toNat < 8 ∧ ∀ now, Scene stations number r.flow false 12 now after) ∧
      (w.configure (number + 1) r).2.Stands stations 2 after := by
  obtain ⟨cast, calm, stands⟩ := settled.stands
  obtain ⟨n, found⟩ := exists_node stands.length (Nat.succ_lt_succ here)
  have rests := calm.rests number here
  obtain ⟨own, link, station, empty, links⟩ := rests.exists_own
  have draws := stands.draws.nodes _ n found
  have held : n.interface.negotiation = .asking own link [] := draws.negotiation.trans station.negotiation
  unfold configure
  rw [node?, found]
  dsimp only
  split
  case h_1 => exact ⟨cast, .inl calm, stands.mono (Nat.zero_le 2)⟩
  case h_2 call command passes =>
    obtain ⟨agreement, built, rfl, rfl, inactive, requests⟩ :
        ∃ agreement, r.build = .ok agreement ∧ call = .negotiate agreement r.command ∧
          command = .validate n.interface.vif agreement.flow agreement.chipBlob ∧
          n.interface.negotiation.own.isInstalled r.flow = false ∧ r.command.isRequest = true := by
      cases Interface.configured passes with
      | installs mode => exact absurd (negotiates.symm.trans mode) (by decide)
      | asks mode built free request => exact ⟨_, built, rfl, rfl, free, request⟩
    obtain ⟨legible, sameFlow, small⟩ := SetupRequest.legible_build built
    rw [held, ← sameFlow] at inactive
    rw [← sameFlow] at small ⊢
    let command : Host.Command := .validate n.interface.vif agreement.flow agreement.chipBlob
    have fits : command.Fits := fits_chipBlob agreement
    have grants : Host.Chip.execute n.bus.link.installed command = (0, n.bus.link.installed) := by
      have filled : agreement.chipBlob.isEmpty = false :=
        List.isEmpty_eq_false_iff.mpr (List.ne_nil_of_length_pos (by
          rw [Agreement.length_chipBlob]
          decide))
      show ((if agreement.chipBlob.isEmpty then _ else 0), _) = _
      rw [filled]
      rfl
    obtain ⟨m, v, beside, silent, prompt, interface, installed, result⟩ :=
      callChip_of_hushed settled.ready found (fun other node _ there => settled.silent there)
        (settled.silent found) draws.prompt fits (by simp [command]) grants
        (.negotiate agreement r.command)
    have stood := stands.consulted settled calm.still found beside silent prompt interface installed
    have last := stood.operate beside.found rests.still (·.sendRequest agreement r.command)
    rw [result]
    rw [station.negotiation] at last
    refine ⟨_, ?_, last ?_⟩
    · rcases links with rfl | rfl
      · exact .inl (calm_sendRequest calm here small requests station empty)
      · exact .inr ⟨small, scene_sendRequest calm few here small legible requests station empty inactive⟩
    · rcases links with rfl | rfl
      · rw [Negotiation.sendRequest_of_parted rfl requests]
        exact Nat.zero_le 1
      · rw [Negotiation.sendRequest_of_joined accessPoint?_joined requests]
        exact Nat.le_refl 1

end World

end TargetWakeTime.Simulation
