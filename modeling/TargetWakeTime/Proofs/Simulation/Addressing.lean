import Mathlib.Data.List.Nodup
import TargetWakeTime.Proofs.Simulation.Accord

/-!
Contract: whom a frame on the air reaches.

Owns:
- worlds underway, which are all that becomes of a new network: moves, jumps of the clock, whatever is
  done to an interface, local operations on their way, and chips that fail or are taken away;
- that no node ever changes its address or leaves the air, whatever happens;
- that the nodes of a network have addresses of their own, and that every frame reaches the node of its
  destination and no other, exactly if there are at most 255 stations.

The crux is that the last octet of a station's address counts from one and wraps: the station after
them has the address of the access point, and it joins the air later.
-/

namespace TargetWakeTime

/-! ### An interface keeps its address -/

namespace Interface

theorem address_afterFrame (task : Task) (queue : List Task) (i : Interface) :
    (i.afterFrame task queue).address = i.address := by
  cases task <;> rfl

theorem address_perform (task : Task) (queue : List Task) (i : Interface) :
    (i.perform task queue).1.address = i.address := by
  have sent (frame : ActionFrame) : (i.sendFrame task frame queue).1.address = i.address := by
    unfold sendFrame
    split
    · rfl
    · exact address_afterFrame task queue i
  cases task with
  | sendSetup | sendTeardown => exact sent _
  | handleEvents | applyCommands | retryEvents => rfl

theorem address_of_work {i after : Interface} {request : Option Request}
    (found : i.work = some (after, request)) : after.address = i.address := by
  cases worked found with
  | performed => exact address_perform _ _ i
  | taken | flushed | stopped | done | begun | applied => rfl

theorem address_frameSent (i : Interface) : i.frameSent.address = i.address := by
  unfold frameSent
  split
  · exact address_afterFrame _ _ i
  · rfl

theorem address_commandDone (succeeded : Bool) (i : Interface) :
    (i.commandDone succeeded).address = i.address := by
  unfold commandDone
  split
  · cases succeeded <;> rfl
  · rfl

/-- Whatever is done to an interface, it keeps its address. -/
theorem address_apply (action : Action) (i : Interface) : (action.apply i).address = i.address := by
  cases action with
  | teardown flow =>
      rw [Action.apply, teardown_snd]
      rfl
  | complete call answer =>
      cases answer with
      | error => rfl
      | ok => cases call <;> rfl
  | work =>
      cases found : i.work with
      | none => simp only [Action.apply, found, Option.map_none, Option.getD_none]
      | some result =>
          simp only [Action.apply, found, Option.map_some, Option.getD_some]
          exact address_of_work found
  | frameSent => exact address_frameSent i
  | commandDone succeeded => exact address_commandDone succeeded i
  | receiveSetup | receiveTeardown | associationRequest | associationResponse
      | associationRequestElement | authorized | removeStation | purgeEvents | relink | wake => rfl

end Interface

namespace Simulation

namespace Node

variable {n m : Node} {now : Nat} {caller : Caller}

theorem address_settle (completion : Host.Bus.Completion Caller) (n : Node) :
    (n.settle completion).interface.address = n.interface.address := by
  unfold settle
  split
  · exact Interface.address_commandDone _ _
  · rfl

theorem address_of_step? (stepped : n.step? now caller = some m) :
    m.interface.address = n.interface.address := by
  have settled (completions : List (Host.Bus.Completion Caller)) (n : Node) :
      (completions.foldl settle n).interface.address = n.interface.address := by
    induction completions generalizing n with
    | nil => rfl
    | cons first rest inductionHypothesis =>
        exact (inductionHypothesis (n.settle first)).trans (address_settle first n)
  unfold step? at stepped
  split at stepped
  · obtain ⟨⟨bus, completions⟩, -, rfl⟩ := Option.map_eq_some_iff.mp stepped
    exact settled completions _
  · cases stepped

theorem address_steps (count : Nat) (n : Node) :
    (n.steps now caller count).interface.address = n.interface.address := by
  induction count generalizing n with
  | zero => rfl
  | succ count inductionHypothesis =>
      unfold steps
      split
      case h_1 m stepped => exact (inductionHypothesis m).trans (address_of_step? stepped)
      case h_2 => rfl

theorem address_operate (now : Nat) (n : Node) :
    (n.operate now).interface.address = n.interface.address :=
  address_steps n.bus.channel.stepBound n

end Node

namespace World

/-- The addresses of the nodes, in the order in which they joined the air. -/
def addresses (w : World) : List MacAddress := w.nodes.map (·.interface.address)

/-- Frames go through the air, and the nodes have these addresses. -/
structure OnAir (addresses : List MacAddress) (w : World) : Prop where
  air : w.radio = .air
  addresses : w.addresses = addresses

variable {w v : World} {addresses : List MacAddress} {index : Nat} {n m : Node} {f : Node → Node}

theorem OnAir.putNode (onAir : w.OnAir addresses) (found : w.nodes[index]? = some n)
    (same : m.interface.address = n.interface.address) : (w.putNode index m).OnAir addresses := by
  refine ⟨onAir.air, Eq.trans (List.ext_getElem? fun other => ?_) onAir.addresses⟩
  rw [World.addresses, World.addresses, List.getElem?_map, List.getElem?_map,
    getElem?_putNode (lt_of_node found)]
  split
  case isTrue here => rw [here, found, Option.map_some, Option.map_some, same]
  case isFalse => rfl

theorem OnAir.modifyNode (onAir : w.OnAir addresses) (index : Nat)
    (same : ∀ n, (f n).interface.address = n.interface.address) :
    (w.modifyNode index f).OnAir addresses := by
  cases found : w.nodes[index]? with
  | none => rwa [modifyNode_of_nobody found]
  | some n =>
      rw [modifyNode_of_node found]
      exact onAir.putNode found (same n)

theorem OnAir.modifyNodes (onAir : w.OnAir addresses)
    (same : ∀ n, (f n).interface.address = n.interface.address) :
    (w.modifyNodes f).OnAir addresses := by
  have renewed := renewed_modifyNodes f w
  refine ⟨renewed.radio.trans onAir.air, ?_⟩
  rw [World.addresses, renewed.nodes, List.map_map, ← onAir.addresses, World.addresses]
  exact List.map_congr_left fun n _ => same n

theorem address_hand (source : MacAddress) (frame : ActionFrame) (i : Interface) :
    (hand source frame i).address = i.address := by
  unfold hand
  split
  · rfl
  · split <;> rfl

/-! ### Moves -/

theorem OnAir.serve {request : Interface.Request} (onAir : w.OnAir addresses) (index : Nat)
    (source : MacAddress) : (w.serve index source request).OnAir addresses := by
  unfold World.serve
  cases request with
  | alarm | command => exact onAir.modifyNode index fun _ => rfl
  | transmit frame =>
      refine OnAir.modifyNode ?_ index fun n => Interface.address_frameSent n.interface
      rw [transmit, onAir.air]
      dsimp only
      split
      · exact onAir.modifyNode _ fun n => address_hand source frame n.interface
      · exact onAir

theorem OnAir.step (onAir : w.OnAir addresses) (index : Nat) : (w.step index).OnAir addresses := by
  have result := stepped_step index w
  generalize w.step index = v at result ⊢
  cases result with
  | nobody | still => exact onAir
  | channel found stepped => exact onAir.putNode found (Node.address_of_step? stepped)
  | worked found work => exact onAir.putNode found (Interface.address_of_work work)
  | served found work => exact (onAir.putNode found (Interface.address_of_work work)).serve _ _

theorem OnAir.jump (onAir : w.OnAir addresses) (time : Nat) : (w.jump time).OnAir addresses :=
  OnAir.modifyNodes (w := { w with now := max w.now time }) ⟨onAir.air, onAir.addresses⟩ fun _ => rfl

theorem OnAir.move? (onAir : w.OnAir addresses) (moved : w.move? = some v) : v.OnAir addresses := by
  rcases move?_cases moved with ⟨index, rest, -, rfl⟩ | ⟨-, -, rfl⟩
  · have stepped : ({ w with ready := rest }.step index).OnAir addresses :=
      OnAir.step (w := { w with ready := rest }) ⟨onAir.air, onAir.addresses⟩ index
    obtain ⟨order, turned, -⟩ := turn_eq index rest w
    rw [turned]
    exact ⟨stepped.air, stepped.addresses⟩
  · exact onAir.modifyNodes fun _ => rfl

end World

namespace Network

/-- All that becomes of the world of a new network. -/
inductive Underway (settings : Settings) : World → Prop where
  | new : Underway settings (new settings).world
  | moved {w v : World} (underway : Underway settings w) (moved : w.move? = some v) :
      Underway settings v
  | jumped {w : World} (underway : Underway settings w) (time : Nat) : Underway settings (w.jump time)
  /-- An interface acts, or is acted upon. -/
  | acted {w : World} (underway : Underway settings w) (index : Nat)
      (action : Interface → Interface.Action) :
      Underway settings (w.modifyInterface index fun i => (action i).apply i)
  | cleared {w : World} (underway : Underway settings w) (index : Nat) :
      Underway settings (w.modifyInterface index (·.clear))
  /-- A local operation asks the chip. -/
  | asked {w : World} (underway : Underway settings w) (index : Nat) (command : Host.Command) :
      Underway settings
        (w.modifyNode index ({ · with answer := none }.enqueue .operation command))
  /-- A local operation goes on. -/
  | operated {w : World} (underway : Underway settings w) (index : Nat) :
      Underway settings (w.modifyNode index (·.operate w.now))
  /-- Something is done to a chip: it is to lose confirms, or to fail. -/
  | meddled {w : World} (underway : Underway settings w) (index : Nat) (f : Host.Chip → Host.Chip) :
      Underway settings (w.modifyNode index (·.withChip f))
  | detached {w : World} (underway : Underway settings w) (index : Nat) :
      Underway settings (w.detach index)
  | attached {w : World} (underway : Underway settings w) (index : Nat) :
      Underway settings (w.attach index)

variable {settings : Settings} {w v : World} {network : Network} {index : Nat}

theorem onAir_new (settings : Settings) :
    (new settings).world.OnAir ((List.range (settings.stations + 1)).map nodeAddress) where
  air := rfl
  addresses := by
    rw [World.addresses, List.range_succ_eq_map, List.map_cons, List.map_map]
    simp only [new, List.map_cons, List.map_map]
    rfl

/-- Whatever happens in a network, every node is on the air with the address it was given. -/
theorem Underway.onAir (underway : Underway settings w) :
    w.OnAir ((List.range (settings.stations + 1)).map nodeAddress) := by
  induction underway with
  | new => exact onAir_new settings
  | moved _ moved onAir => exact onAir.move? moved
  | jumped _ time onAir => exact onAir.jump time
  | acted _ index action onAir =>
      exact onAir.modifyNode index fun n => Interface.address_apply (action n.interface) n.interface
  | operated _ index onAir => exact onAir.modifyNode index (Node.address_operate _)
  | cleared _ index onAir | asked _ index _ onAir | meddled _ index _ onAir
      | detached _ index onAir | attached _ index onAir =>
      exact onAir.modifyNode index fun _ => rfl

/-! ### Operations keep a world underway -/

theorem Underway.run (underway : Underway settings w) (alarm : Option Nat) (woken : World → Bool)
    (moves : Nat) : Underway settings (w.run alarm woken moves) := by
  induction moves generalizing w with
  | zero => exact underway
  | succ moves inductionHypothesis =>
      unfold World.run
      split
      case h_1 v moved => exact inductionHypothesis (underway.moved moved)
      case h_2 =>
        split
        · exact underway
        · split
          · exact underway
          · exact inductionHypothesis (underway.jumped _)
          · exact underway.jumped _
          · split
            · exact underway.jumped _
            · exact inductionHypothesis (underway.jumped _)

theorem Underway.act (underway : Underway settings w) (index : Nat) (action : Interface.Action) :
    Underway settings (w.modifyInterface index action.apply) :=
  underway.acted index fun _ => action

theorem Underway.flush (underway : Underway settings w) (index : Nat) :
    Underway settings (w.flush index) := by
  unfold World.flush
  split
  · exact underway
  · exact (underway.act index (.wake [.flush])).run none _ _

theorem Underway.settle (underway : Underway settings network.world) :
    Underway settings network.settle.world := by
  have flushed (indices : List Nat) {w : World} (underway : Underway settings w) :
      Underway settings (indices.foldl (fun w index => w.flush index) w) := by
    induction indices generalizing w with
    | nil => exact underway
    | cons index rest inductionHypothesis => exact inductionHypothesis (underway.flush index)
  exact flushed _ underway

theorem Underway.onInterface {α : Type} {result : α} {f : Interface → α × Interface}
    (underway : Underway settings w) (action : Interface.Action)
    (acts : ∀ i, (f i).2 = action.apply i) (found : w.onInterface index f = some (result, v)) :
    Underway settings v := by
  obtain ⟨node, present, same⟩ := Option.map_eq_some_iff.mp found
  have put : v = w.modifyInterface index action.apply := by
    rw [World.modifyInterface, World.modifyNode_of_node present, ← acts]
    exact (congrArg (·.2) same).symm
  exact put ▸ underway.act index action

theorem Underway.operate (underway : Underway settings w) (index turns : Nat) :
    Underway settings (w.operate index turns) := by
  induction turns generalizing w with
  | zero => exact underway
  | succ turns inductionHypothesis =>
      unfold World.operate
      dsimp only
      split
      · exact underway.operated index
      · exact inductionHypothesis ((underway.operated index).run _ _ _)

theorem Underway.callChip (underway : Underway settings w) (index : Nat) (call : LocalCall)
    (command : Host.Command) : Underway settings (w.callChip index call command).2 := by
  unfold World.callChip
  dsimp only
  generalize ended : World.operate _ _ _ = after
  have goesOn : Underway settings after := ended ▸ (underway.asked index command).operate index _
  split
  · exact goesOn
  case h_2 answer _ =>
    cases found : after.onInterface index (·.complete call answer) with
    | none => exact goesOn
    | some result => exact goesOn.onInterface (.complete call answer) (fun _ => rfl) found

theorem Underway.configure (underway : Underway settings w) (index : Nat) (r : SetupRequest) :
    Underway settings (w.configure index r).2 := by
  unfold World.configure
  split
  · exact underway
  · split
    · exact underway
    · exact underway.callChip ..

theorem Underway.teardown (underway : Underway settings w) (index : Nat) (flow : UInt8) :
    Underway settings (w.teardown index flow).2 := by
  have begun {result : Except Error (Option (LocalCall × Host.Command))} {v : World}
      (found : w.onInterface index (·.teardown flow) = some (result, v)) : Underway settings v :=
    underway.onInterface (.teardown flow) (fun _ => rfl) found
  unfold World.teardown
  split
  case h_1 => exact underway
  case h_2 found | h_3 found => exact begun found
  case h_4 found => exact (begun found).callChip ..

theorem Underway.relink (underway : Underway settings w) (index : Nat)
    (f : Association → Association) :
    Underway settings (w.modifyInterface index (·.withLink f)) :=
  underway.acted index fun i => .relink (f i.negotiation.link)

theorem Underway.associate (underway : Underway settings network.world) (index : Nat) :
    Underway settings (network.associate index).2.world := by
  unfold Network.associate
  split
  · exact underway
  · exact (underway.relink _ _).relink _ _

theorem Underway.disassociate (underway : Underway settings network.world) (index : Nat) :
    Underway settings (network.disassociate index).2.world := by
  unfold Network.disassociate
  split
  · exact underway
  · exact (((underway.act accessPoint (.removeStation _)).act _ (.removeStation _)).relink _ _).relink
      _ _

theorem Underway.ask (underway : Underway settings network.world) (request : Request) :
    Underway settings (network.ask request).world := by
  unfold Network.ask
  split
  · exact underway.associate _
  · exact underway.disassociate _
  · exact underway.configure ..
  · exact underway.teardown ..

theorem underway_reached (requests : List Request) :
    ∀ network ∈ Runs.reached Network.act (new settings) requests, Underway settings network.world :=
  Runs.invariant_of_steps (fun network : Network => Underway settings network.world)
    (fun _ request underway (_ : True) => (underway.ask request).settle) .new fun _ _ => trivial

end Network

/-! ### Whom a frame reaches -/

namespace World

variable {w : World} {addresses : List MacAddress} {index other : Nat} {n : Node}
  {source : MacAddress} {frame : ActionFrame}

/-- Every frame for the address of a node is handed to that node, and to no other. -/
def Delivers (w : World) : Prop :=
  ∀ (index : Nat) (n : Node), w.nodes[index]? = some n → ∀ (source : MacAddress) (frame : ActionFrame),
    frame.destination = n.interface.address →
      w.transmit source frame = w.modifyInterface index (hand source frame)

theorem address_of_node (found : w.nodes[index]? = some n) :
    w.addresses[index]? = some n.interface.address := by
  rw [World.addresses, List.getElem?_map, found, Option.map_some]

theorem delivers_of_nodup (onAir : w.OnAir addresses) (nodup : addresses.Nodup) : w.Delivers := by
  intro index n found source frame addressed
  have only : ∀ other m, w.nodes[other]? = some m →
      m.interface.address = n.interface.address → other = index := by
    intro other m foundOther same
    have here : other < w.addresses.length := by
      rw [World.addresses, List.length_map]
      exact lt_of_node foundOther
    refine (List.getElem?_inj here (onAir.addresses ▸ nodup)).mp ?_
    rw [address_of_node foundOther, address_of_node found, same]
  rw [transmit, onAir.air, addressed]
  dsimp only
  rw [findNode?_of_unique found rfl only]

/-- If two nodes have one address, a frame that makes a difference to one of them cannot reach
both. -/
theorem not_delivers_of_shared {m : Node} (found : w.nodes[index]? = some n)
    (foundOther : w.nodes[other]? = some m) (apart : index ≠ other)
    (same : m.interface.address = n.interface.address)
    (addressed : frame.destination = n.interface.address)
    (matters : hand source frame n.interface ≠ n.interface) : ¬w.Delivers := by
  intro delivers
  have both : w.modifyInterface index (hand source frame) =
      w.modifyInterface other (hand source frame) :=
    (delivers index n found source frame addressed).symm.trans
      (delivers other m foundOther source frame (addressed.trans same.symm))
  have here := congrArg (·.nodes[index]?) both
  simp only [World.modifyInterface, getElem?_modifyNode, found, if_neg apart, if_true,
    Option.map_some, Option.some.injEq] at here
  exact matters (congrArg Node.interface here)

end World

namespace Network

/-- The station after the first 255 has the address of the access point. -/
theorem stationAddress_wraps : stationAddress 255 = accessPointAddress := by decide

theorem nodup_addresses_iff (settings : Settings) :
    (new settings).world.addresses.Nodup ↔ settings.stations ≤ 255 := by
  rw [(onAir_new settings).addresses]
  constructor
  · intro nodup
    refine Nat.le_of_not_lt fun crowded => ?_
    have first : 0 ∈ List.range (settings.stations + 1) := List.mem_range.mpr (by omega)
    have last : 256 ∈ List.range (settings.stations + 1) := List.mem_range.mpr (by omega)
    cases List.inj_on_of_nodup_map nodup first last stationAddress_wraps.symm
  · intro few
    refine List.Nodup.map_on (fun first firstThere second secondThere same => ?_) List.nodup_range
    exact nodeAddress_injective (Nat.lt_of_lt_of_le (List.mem_range.mp firstThere) (by omega))
      (Nat.lt_of_lt_of_le (List.mem_range.mp secondThere) (by omega)) same

/-- A request of a station for an agreement. -/
def sampleRequest : ActionFrame where
  destination := accessPointAddress
  payload := [0x00, 0x21, 0, 0, 0, 0, 0, 0, 0, 0, 0, 1, 0, 4, 0]
  token := 1
  setup := true

/-- Beyond 255 stations, a request to the access point never gets there. -/
theorem not_delivers_of_crowded {settings : Settings} (crowded : 255 < settings.stations) :
    ¬(new settings).world.Delivers := by
  have length : (new settings).world.nodes.length = settings.stations + 1 := by simp [new]
  have there : 256 < settings.stations + 1 := by omega
  obtain ⟨m, found⟩ := World.exists_node length there
  have address : m.interface.address = stationAddress 255 := by
    rw [new_of_node found]
    rfl
  have first : (new settings).world.nodes[0]? =
      some (.new settings.node (.new 0 accessPointAddress .accessPoint)) := rfl
  -- The access point would note the request.
  have matters : World.hand (stationAddress 0) sampleRequest (.new 0 accessPointAddress .accessPoint) ≠
      .new 0 accessPointAddress .accessPoint := by
    intro same
    exact absurd (congrArg (·.negotiation.events.toList.length) same) (by decide)
  exact World.not_delivers_of_shared first found (by decide) (address.trans stationAddress_wraps) rfl
    matters

/-- Up to 255 stations, all frames get where they are to go. -/
theorem delivers_of_underway {settings : Settings} (few : settings.stations ≤ 255) {w : World}
    (underway : Underway settings w) : w.Delivers := by
  have nodup := (nodup_addresses_iff settings).mpr few
  rw [(onAir_new settings).addresses] at nodup
  exact World.delivers_of_nodup underway.onAir nodup

/-- In particular, they do in every network that requests to the stations lead to. -/
theorem delivers_reached {settings : Settings} (few : settings.stations ≤ 255)
    (requests : List Request) :
    ∀ network ∈ Runs.reached Network.act (new settings) requests, network.world.Delivers :=
  fun network member => delivers_of_underway few (underway_reached requests network member)

/-- The nodes of a network have addresses of their own, and whatever happens in it, every frame reaches
the node of its destination and no other, exactly if there are at most 255 stations. -/
theorem distinct_delivers_iff_le (settings : Settings) :
    ((new settings).world.addresses.Nodup ↔ settings.stations ≤ 255) ∧
      ((∀ w, Underway settings w → w.Delivers) ↔ settings.stations ≤ 255) := by
  refine ⟨nodup_addresses_iff settings, fun delivers => ?_, fun few w underway => ?_⟩
  · refine Nat.le_of_not_lt fun crowded => ?_
    exact not_delivers_of_crowded crowded (delivers _ .new)
  · exact delivers_of_underway few underway

/-- With 256 stations, one of them has the address of the access point, and gets its frames. -/
theorem not_distinct_not_delivers_256 :
    let settings : Settings := { stations := 256 }
    settings.stations ≤ 65535 ∧ ¬(new settings).world.addresses.Nodup ∧
      ¬∀ w, Underway settings w → w.Delivers := by
  intro settings
  refine ⟨by decide, fun nodup => ?_, fun delivers => ?_⟩
  · exact absurd ((nodup_addresses_iff settings).mp nodup) (by decide)
  · have crowded : 255 < settings.stations := by decide
    exact not_delivers_of_crowded crowded (delivers _ .new)

end Network

end Simulation

end TargetWakeTime
