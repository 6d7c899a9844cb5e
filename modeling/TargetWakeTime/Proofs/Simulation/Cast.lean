import TargetWakeTime.Proofs.Simulation.Sketch

/-!
Contract: worlds on the air whose nodes are all as their sketches say.

Owns:
- casts, with a sketch for each node, and what a step of one node makes of a cast;
- that each move of a world does to its cast what a step does, or what a delivery does, or only uses
  up effort or a turn;
- that a world comes to rest if its cast follows a plot, whose rank falls with each step, each delivery
  and each jump of the clock.

A frame must find its receiver at rest, and no one behind the receiver's command.
-/

namespace TargetWakeTime.Simulation

/-- A receiver can take a frame. -/
structure Sketch.Takes (source : MacAddress) (frame : ActionFrame) (x : Sketch) : Prop where
  rests : x.activity = .resting
  full : frame.payload ≠ []
  alone : (Sketch.taken source frame x.negotiation).tasks.length ≤ 1

/-- A step leaves a node its address. -/
theorem Sketch.address_next? {x y : Sketch} {due : Nat} {frame : Option ActionFrame}
    (next : x.next? due = some (y, frame)) : y.address = x.address := by
  unfold Sketch.next? at next
  split at next <;> cases next <;> rfl

/-- A sketch for each node. -/
def Cast : Type := Nat → Sketch

namespace Cast

def set (index : Nat) (y : Sketch) (cast : Cast) : Cast :=
  fun other => if other = index then y else cast other

/-- What a step of one node makes of a cast. -/
inductive Next (size : Nat) (cast : Cast) (index due : Nat) : Cast → Prop where
  | alone {y : Sketch} (next : (cast index).next? due = some (y, none)) :
      Next size cast index due (cast.set index y)
  | handed {y : Sketch} {frame : ActionFrame} {other : Nat}
      (next : (cast index).next? due = some (y, some frame)) (there : other < size)
      (apart : other ≠ index) (addressed : (cast other).address = frame.destination) :
      Next size cast index due
        ((cast.set other ((cast other).receive (cast index).address frame)).set index y)

/-- A node can take its next step, and if it sends a frame, there is one node to receive it. -/
structure Prepared (size : Nat) (marks : Nat → Bool) (cast : Cast) (index : Nat) : Prop where
  able : (cast index).Able
  received : ∀ due y frame, (cast index).next? due = some (y, some frame) →
    ∃ other, other < size ∧ other ≠ index ∧ marks other = false ∧
      (cast other).address = frame.destination ∧
      (∀ third, third < size → (cast third).address = frame.destination → third = other) ∧
      (cast other).Takes (cast index).address frame

variable {cast : Cast} {index other : Nat} {y : Sketch}

@[simp] theorem set_self : cast.set index y index = y := if_pos rfl

theorem set_of_ne (apart : other ≠ index) : cast.set index y other = cast other := if_neg apart

@[simp] theorem set_same : cast.set index (cast index) = cast := by
  funext other
  by_cases same : other = index
  · rw [same, set_self]
  · exact set_of_ne same

end Cast

/-- A course of events among these many nodes, told at each time by a cast and its rank: everything that
can happen next belongs to it, and leads to a lower rank. -/
structure Plot (size : Nat) (marks : Nat → Bool) (plot : Nat → Nat → Cast → Prop) : Prop where
  prepared : ∀ rank now cast, plot rank now cast → ∀ index, index < size →
    cast.Prepared size marks index
  stepped : ∀ rank now cast, plot rank now cast → ∀ index, index < size → ∀ due after, now ≤ due →
    cast.Next size index due after → ∃ less, less < rank ∧ plot less now after
  delivered : ∀ rank now cast, plot rank now cast → ∀ index, index < size → ∀ due,
    (cast index).timer? = some due → due ≤ now →
      ∃ less, less < rank ∧ plot less now fun index => (cast index).delivered now
  jumped : ∀ rank now cast, plot rank now cast → ∀ index, index < size → ∀ time,
    (cast index).timer? = some time → now < time → ∃ less, less < rank ∧ plot less time cast

namespace World

/-- Each node is as its sketch says, and frames go through the air. -/
structure Draws (marks : Nat → Bool) (cast : Cast) (w : World) : Prop where
  air : w.radio = .air
  nodes : ∀ (index : Nat) (n : Node), w.nodes[index]? = some n →
    n.Draws w.now (marks index) (cast index)

variable {w v : World} {index other size : Nat} {m n : Node} {y : Sketch} {cast : Cast}
  {marks : Nat → Bool} {source : MacAddress} {frame : ActionFrame}

/-- A node that is put in place is drawn if it and all others are. -/
theorem draws_putNode (air : w.radio = .air)
    (others : ∀ other n, other ≠ index → w.nodes[other]? = some n →
      n.Draws w.now (marks other) (cast other))
    (here : index < w.nodes.length) (draws : m.Draws w.now (marks index) y) :
    (w.putNode index m).Draws marks (cast.set index y) where
  air := air
  nodes other n found := by
    rw [getElem?_putNode here] at found
    by_cases same : other = index
    · subst same
      rw [if_pos rfl] at found
      obtain rfl := Option.some.inj found
      rwa [Cast.set_self]
    · rw [if_neg same] at found
      rw [Cast.set_of_ne same]
      exact others other n same found

theorem Draws.putNode (drawn : w.Draws marks cast) (here : index < w.nodes.length)
    (draws : m.Draws w.now (marks index) y) : (w.putNode index m).Draws marks (cast.set index y) :=
  draws_putNode drawn.air (fun other n _ => drawn.nodes other n) here draws

/-- The order in which workers take turns does not matter to what their nodes are. -/
theorem Draws.reordered (drawn : w.Draws marks cast) (ready : List Nat) :
    ({ w with ready } : World).Draws marks cast := ⟨drawn.air, drawn.nodes⟩

/-! ### Frames -/

/-- An address that only one node has leads to this node. -/
theorem findNode?_of_unique {address : MacAddress} (found : w.nodes[index]? = some n)
    (addressed : n.interface.address = address)
    (only : ∀ other m, w.nodes[other]? = some m → m.interface.address = address → other = index) :
    w.findNode? address = some index := by
  unfold findNode?
  generalize nodes : (w.nodes.zipIdx.filter (·.1.interface.address == address)) = joined
  have member : (n, index) ∈ joined := by
    rw [← nodes, List.mem_filter]
    exact ⟨List.mk_mem_zipIdx_iff_getElem?.mpr found, by simpa using addressed⟩
  have filled : joined ≠ [] := List.ne_nil_of_mem member
  have last : joined.getLast filled ∈ w.nodes.zipIdx.filter (·.1.interface.address == address) := by
    rw [nodes]
    exact List.getLast_mem filled
  obtain ⟨listed, located⟩ := List.mem_filter.mp last
  have here := only _ _ (List.mem_zipIdx_iff_getElem?.mp listed) (by simpa using located)
  show Option.map (·.2) joined.getLast? = some index
  rw [List.getLast?_eq_some_getLast filled, Option.map_some, here]

/-- A frame reaches the one node with the address of its destination. -/
theorem transmit_of_air (air : w.radio = .air)
    (addresses : ∀ (third : Nat) (node : Node), w.nodes[third]? = some node →
      node.interface.address = (cast third).address)
    (found : w.nodes[other]? = some m) (addressed : (cast other).address = frame.destination)
    (only : ∀ third, third < w.nodes.length → (cast third).address = frame.destination →
      third = other) :
    w.transmit source frame =
      w.putNode other { m with interface := hand source frame m.interface } := by
  have leads : w.findNode? frame.destination = some other := by
    refine findNode?_of_unique found ((addresses other m found).trans addressed) ?_
    intro third node there same
    exact only third (lt_of_node there) ((addresses third node there).symm.trans same)
  rw [World.transmit, air]
  dsimp only
  rw [leads]
  exact modifyNode_of_node found

/-! ### Steps and moves -/

/-- What a step of a node makes of a world. -/
inductive Draws.Stepped (marks : Nat → Bool) (cast : Cast) (index : Nat) (w : World) : World → Prop where
  | still : Stepped marks cast index w w
  | idled {v : World} (draws : v.Draws marks cast) (effort : v.effort < w.effort) :
      Stepped marks cast index w v
  | advanced {v : World} {due : Nat} {after : Cast} (soon : w.now ≤ due)
      (next : cast.Next w.nodes.length index due after) (draws : v.Draws marks after)
      (effort : v.effort ≤ w.effort + 3) : Stepped marks cast index w v

/-- A node is put in place twice. -/
theorem effort_putNode_twice (first second : Node) (found : w.nodes[index]? = some n) :
    ((w.putNode index first).putNode index second).effort + n.interface.worker.effort =
      w.effort + second.interface.worker.effort := by
  have put : (w.putNode index first).nodes[index]? = some first := by
    rw [getElem?_putNode (lt_of_node found), if_pos rfl]
  have before := effort_putNode (m := first) found
  have after := effort_putNode (m := second) put
  omega

/-- The command of an event gets onto the channel. -/
theorem Draws.asked {before after : Node} (drawn : w.Draws marks cast)
    (found : w.nodes[index]? = some n) (leads : ∀ due, (cast index).next? due = some (y, none))
    (draws : after.Draws w.now (marks index) y)
    (effort : after.interface.worker.effort ≤ n.interface.worker.effort + 1) :
    Draws.Stepped marks cast index w ((w.putNode index before).putNode index after) := by
  have here := lt_of_node found
  refine .advanced (Nat.le_refl _) (.alone (leads w.now)) (draws_putNode drawn.air ?_ ?_ draws) ?_
  · intro other m apart there
    rw [getElem?_putNode here, if_neg apart] at there
    exact drawn.nodes other m there
  · rwa [length_putNode]
  · have change := effort_putNode_twice before after found
    omega

/-- A frame gets to its receiver, and its sender goes on. -/
theorem Draws.sent {after : Node} (before : Node) (drawn : w.Draws marks cast)
    (prepared : cast.Prepared w.nodes.length marks index)
    (found : w.nodes[index]? = some n)
    (leads : ∀ due, (cast index).next? due = some (y, some frame))
    (located : before.interface.address = (cast index).address)
    (draws : after.Draws w.now (marks index) y)
    (effort : after.interface.worker.effort ≤ n.interface.worker.effort + 1) :
    ∃ other received,
      (w.putNode index before).transmit (cast index).address frame =
        (w.putNode index before).putNode other received ∧
      ((w.putNode index before).putNode other received).nodes[index]? = some before ∧
      Draws.Stepped marks cast index w
        (((w.putNode index before).putNode other received).putNode index after) := by
  have here := lt_of_node found
  obtain ⟨other, there, apart, unmarked, addressed, only, takes⟩ :=
    prepared.received w.now y frame (leads w.now)
  have receiver := List.getElem?_eq_getElem there
  generalize w.nodes[other] = m at receiver
  have stays : (w.putNode index before).nodes[other]? = some m := by
    rw [getElem?_putNode here, if_neg apart, receiver]
  have receives := drawn.nodes other m receiver
  rw [unmarked] at receives
  obtain ⟨received, heard⟩ := receives.receive takes.rests takes.full takes.alone
  have heldBack : ((w.putNode index before).putNode other
      { m with interface := hand (cast index).address frame m.interface }).nodes[index]? =
        some before := by
    rw [getElem?_putNode (by rwa [length_putNode]), if_neg (Ne.symm apart), getElem?_putNode here,
      if_pos rfl]
  refine ⟨other, _, transmit_of_air drawn.air ?_ stays addressed ?_, heldBack, ?_⟩
  · intro third node at_
    rw [getElem?_putNode here] at at_
    split at at_
    case isTrue same =>
      obtain rfl := Option.some.inj at_
      rw [same, located]
    case isFalse => exact (drawn.nodes third node at_).address
  · rwa [length_putNode]
  · refine .advanced (Nat.le_refl _) (.handed (leads w.now) there apart addressed)
      (draws_putNode drawn.air ?_ (lt_of_node heldBack) draws) ?_
    · intro third node notIndex at_
      rw [getElem?_putNode (by rwa [length_putNode])] at at_
      by_cases same : third = other
      · subst same
        rw [if_pos rfl] at at_
        obtain rfl := Option.some.inj at_
        rw [Cast.set_self, unmarked]
        exact received
      · rw [if_neg same, getElem?_putNode here, if_neg notIndex] at at_
        rw [Cast.set_of_ne same]
        exact drawn.nodes third node at_
    · have first := effort_putNode (m := before) found
      have second := effort_putNode
        (m := { m with interface := hand (cast index).address frame m.interface }) stays
      have third := effort_putNode (m := after) heldBack
      have heard : ({ m with interface := hand (cast index).address frame m.interface } :
          Node).interface.worker.effort ≤ m.interface.worker.effort + 2 := heard
      omega

/-- A node's step does what its sketch says. -/
theorem Draws.step (drawn : w.Draws marks cast)
    (prepared : cast.Prepared w.nodes.length marks index) :
    Draws.Stepped marks cast index w (w.step index) ∧ (w.step index).now = w.now ∧
      (w.step index).nodes.length = w.nodes.length := by
  have result := stepped_step index w
  generalize w.step index = v at result ⊢
  cases result with
  | nobody | still => exact ⟨.still, rfl, rfl⟩
  | @channel n m found stepped =>
      obtain ⟨due, y, soon, next, draws, effort⟩ := (drawn.nodes index n found).step? stepped
      refine ⟨.advanced soon (.alone next) (drawn.putNode (lt_of_node found) draws) ?_, rfl,
        length_putNode⟩
      have change := effort_putNode (m := m) found
      omega
  | @worked n i found work =>
      have here := lt_of_node found
      have change := effort_putNode (m := { n with interface := i }) found
      refine ⟨?_, rfl, length_putNode⟩
      cases (drawn.nodes index n found).work prepared.able work with
      | idled draws effort =>
          have same := drawn.putNode here draws
          rw [Cast.set_same] at same
          refine .idled same ?_
          have less : ({ n with interface := i } : Node).interface.worker.effort <
            n.interface.worker.effort := effort
          omega
      | done leads draws effort =>
          refine .advanced (Nat.le_refl _) (.alone (leads w.now)) (drawn.putNode here draws) ?_
          have more : ({ n with interface := i } : Node).interface.worker.effort ≤
            n.interface.worker.effort + 1 := effort
          omega
  | @served n i request found work =>
      have here := lt_of_node found
      have put : (w.putNode index { n with interface := i }).nodes[index]? =
          some { n with interface := i } := by
        rw [getElem?_putNode here, if_pos rfl]
      cases (drawn.nodes index n found).work prepared.able work with
      | asked leads draws effort =>
          rw [serve, modifyNode_of_node put]
          exact ⟨drawn.asked found leads draws effort, rfl, by rw [length_putNode, length_putNode]⟩
      | sent leads draws effort =>
          have located : i.address = (cast index).address := by
            have framed : i.frameSent.address = i.address := by
              unfold Interface.frameSent
              split
              · unfold Interface.afterFrame
                split <;> rfl
              · rfl
            exact framed.symm.trans (draws.address.trans (Sketch.address_next? (leads w.now)))
          obtain ⟨other, received, transmitted, heldBack, stepped⟩ :=
            drawn.sent { n with interface := i } prepared found leads located draws effort
          rw [serve, located, transmitted, modifyInterface, modifyNode_of_node heldBack]
          exact ⟨stepped, rfl, by simp⟩

/-! ### What time brings -/

/-- What is due by now comes in. -/
theorem Draws.deliver (drawn : w.Draws marks cast) :
    w.deliver.Draws marks (fun index => (cast index).delivered w.now) ∧ w.deliver.effort = w.effort ∧
      w.deliver.now = w.now ∧ w.deliver.nodes.length = w.nodes.length := by
  obtain ⟨now, radio, nodes, -⟩ := renewed_modifyNodes (·.deliver w.now) w
  have nodes : w.deliver.nodes = w.nodes.map (·.deliver w.now) := nodes
  refine ⟨⟨radio.trans drawn.air, fun index n there => ?_⟩, ?_, now, ?_⟩
  · rw [nodes, List.getElem?_map] at there
    obtain ⟨m, before, rfl⟩ := Option.map_eq_some_iff.mp there
    rw [show w.deliver.now = w.now from now]
    exact (drawn.nodes index m before).deliver.1
  · refine effort_modifyNodes fun n member => ?_
    obtain ⟨index, there⟩ := List.getElem?_of_mem member
    rw [(drawn.nodes index n there).deliver.2]
  · rw [nodes, List.length_map]

/-- If no worker can go on, the next timer is the first confirm that a node waits for. -/
theorem Draws.nextTimer? {time : Nat} (drawn : w.Draws marks cast) (tidy : w.Tidy fun _ => False)
    (rests : w.ready = []) (timer : w.nextTimer? = some time) :
    (∃ index, index < w.nodes.length ∧ (cast index).timer? = some time) ∧
      ∀ index, index < w.nodes.length → ∀ due, (cast index).timer? = some due → time ≤ due := by
  have still (index : Nat) (n : Node) (found : w.nodes[index]? = some n) :
      n.nextTimer? = (cast index).timer? :=
    (drawn.nodes index n found).nextTimer? (tidy.still rests found)
  obtain ⟨member, least⟩ := List.min?_eq_some_iff.mp timer
  obtain ⟨n, listed, soonest⟩ := List.mem_filterMap.mp member
  obtain ⟨index, found⟩ := List.getElem?_of_mem listed
  refine ⟨⟨index, lt_of_node found, (still index n found).symm.trans soonest⟩, ?_⟩
  intro other there due waits
  have found := List.getElem?_eq_getElem there
  exact least due (List.mem_filterMap.mpr
    ⟨_, List.getElem_mem there, (still other _ found).trans waits⟩)

/-- The clock jumps to the next confirm. -/
theorem Draws.jump {time : Nat} (drawn : w.Draws marks cast) (tidy : w.Tidy fun _ => False)
    (rests : w.move? = none) (timer : w.nextTimer? = some time) :
    (w.jump time).Draws marks cast ∧ (w.jump time).Tidy (fun _ => False) ∧
      (w.jump time).effort = w.effort ∧ (w.jump time).now = time ∧
      (w.jump time).nodes.length = w.nodes.length ∧ w.now < time ∧
      ∃ index, index < w.nodes.length ∧ (cast index).timer? = some time := by
  obtain ⟨noTurn, noneDue⟩ := move?_eq_none_iff.mp rests
  have later : w.now < time := by
    rw [timer] at noneDue
    simpa using noneDue
  obtain ⟨waits, first⟩ := drawn.nextTimer? tidy noTurn timer
  let clocked : World := { w with now := max w.now time }
  have passed : max w.now time = time := Nat.max_eq_right (Nat.le_of_lt later)
  obtain ⟨now, radio, nodes, tidied⟩ := renewed_modifyNodes id clocked
  have same : (w.jump time).nodes = w.nodes := nodes.trans (List.map_id _)
  have onTime : (w.jump time).now = time := now.trans passed
  refine ⟨⟨radio.trans drawn.air, fun index n found => ?_⟩, ?_, ?_, onTime, by rw [same], later, waits⟩
  · rw [same] at found
    rw [onTime]
    exact (drawn.nodes index n found).later (first index (lt_of_node found))
  · exact tidied (fun _ => True) ⟨fun _ _ _ _ => .inl trivial, tidy.once, tidy.inside⟩
  · rw [effort, same]
    rfl

/-! ### Moves -/

/-- What a move makes of a world. -/
inductive Draws.Moved (marks : Nat → Bool) (cast : Cast) (w : World) : World → Prop where
  | idled {v : World} (draws : v.Draws marks cast)
      (less : v.effort < w.effort ∨ v.effort = w.effort ∧ v.ready.length < w.ready.length) :
      Moved marks cast w v
  | stepped {v : World} {index due : Nat} {after : Cast} (here : index < w.nodes.length)
      (soon : w.now ≤ due) (next : cast.Next w.nodes.length index due after) (draws : v.Draws marks after)
      (effort : v.effort ≤ w.effort + 3) : Moved marks cast w v
  | delivered {v : World} {index due : Nat} (here : index < w.nodes.length)
      (waits : (cast index).timer? = some due) (arrived : due ≤ w.now)
      (draws : v.Draws marks fun index => (cast index).delivered w.now)
      (effort : v.effort = w.effort) : Moved marks cast w v

/-- A move is a step of a node, or a delivery, or brings nothing new. -/
theorem Draws.move (drawn : w.Draws marks cast) (tidy : w.Tidy fun _ => False)
    (prepared : ∀ index, index < w.nodes.length → cast.Prepared w.nodes.length marks index)
    (moved : w.move? = some v) :
    Draws.Moved marks cast w v ∧ v.Tidy (fun _ => False) ∧ v.now = w.now ∧
      v.nodes.length = w.nodes.length := by
  rcases move?_cases moved with ⟨index, rest, ready, rfl⟩ | ⟨noTurn, due, rfl⟩
  · have here := tidy.inside index (ready ▸ List.mem_cons_self)
    obtain ⟨stepped, now, length⟩ := (drawn.reordered rest).step (prepared index here)
    obtain ⟨order, turned, -, -, kept⟩ := turn_eq index rest w
    refine ⟨?_, tidy.turn ready, ?_, ?_⟩
    · rw [turned]
      generalize World.step index { w with ready := rest } = u at stepped kept
      cases stepped with
      | still =>
          have gone : index ∉ rest := (List.nodup_cons.mp (ready ▸ tidy.once)).1
          refine .idled (drawn.reordered order) (.inr ⟨rfl, ?_⟩)
          show order.length < w.ready.length
          rw [kept gone, ready]
          exact Nat.lt_succ_self _
      | idled draws effort => exact .idled (draws.reordered order) (.inl effort)
      | advanced soon next draws effort =>
          exact .stepped here soon next (draws.reordered order) effort
    · rw [turned]
      exact now
    · rw [turned]
      exact length
  · obtain ⟨draws, effort, now, length⟩ := drawn.deliver
    obtain ⟨time, timer, arrived⟩ : ∃ time, w.nextTimer? = some time ∧ time ≤ w.now := by
      cases timer : w.nextTimer? with
      | none =>
          rw [timer] at due
          cases due
      | some time =>
          rw [timer] at due
          exact ⟨time, rfl, by simpa using due⟩
    obtain ⟨⟨index, here, waits⟩, -⟩ := drawn.nextTimer? tidy noTurn timer
    exact ⟨.delivered here waits arrived draws effort,
      (renewed_modifyNodes _ w).tidy _ tidy, now, length⟩

/-! ### Plots -/

/-- What the moves and jumps of a world bring down: most of all the rank of its cast, then the effort
that is left, then the turns that are still to come. -/
def weight (rank : Nat) (w : World) : Nat :=
  (w.nodes.length + 1) * (4 * rank + w.effort) + w.ready.length

/-- Turns weigh less than effort. -/
theorem weight_lt {rank less : Nat} (tidy : v.Tidy fun _ => False)
    (length : v.nodes.length = w.nodes.length)
    (below : 4 * less + v.effort < 4 * rank + w.effort) : v.weight less < w.weight rank := by
  have turns := tidy.length_ready
  have product := Nat.mul_le_mul_left (w.nodes.length + 1) (Nat.succ_le_of_lt below)
  rw [Nat.succ_eq_add_one, Nat.mul_add, Nat.mul_one] at product
  rw [weight, weight, length]
  omega

/-- A world that follows a plot, with this weight and no higher rank left. -/
structure Follows (marks : Nat → Bool) (plot : Nat → Nat → Cast → Prop) (size limit measure : Nat)
    (w : World) : Prop where
  exists_cast : ∃ rank cast, plot rank w.now cast ∧ w.Draws marks cast ∧ rank ≤ limit ∧
    w.weight rank = measure
  tidy : w.Tidy fun _ => False
  length : w.nodes.length = size

variable {plot : Nat → Nat → Cast → Prop} {limit measure fuel : Nat}

theorem Follows.move (story : Plot size marks plot) (follows : w.Follows marks plot size limit measure)
    (moved : w.move? = some v) : ∃ less, less < measure ∧ v.Follows marks plot size limit less := by
  obtain ⟨⟨rank, cast, plotted, drawn, low, rfl⟩, tidy, rfl⟩ := follows
  obtain ⟨result, tidied, now, length⟩ := drawn.move tidy (story.prepared rank _ cast plotted) moved
  cases result with
  | idled draws less =>
      refine ⟨v.weight rank, ?_, ⟨rank, cast, now ▸ plotted, draws, low, rfl⟩, tidied, length⟩
      rcases less with effort | ⟨effort, turns⟩
      · exact weight_lt tidied length (by omega)
      · rw [weight, weight, length, effort]
        omega
  | stepped here soon next draws effort =>
      obtain ⟨less, smaller, follows⟩ := story.stepped rank _ cast plotted _ here _ _ soon next
      exact ⟨v.weight less, weight_lt tidied length (by omega),
        ⟨less, _, now ▸ follows, draws, by omega, rfl⟩, tidied, length⟩
  | delivered here waits arrived draws effort =>
      obtain ⟨less, smaller, follows⟩ := story.delivered rank _ cast plotted _ here _ waits arrived
      exact ⟨v.weight less, weight_lt tidied length (by omega),
        ⟨less, _, now ▸ follows, draws, by omega, rfl⟩, tidied, length⟩

theorem Follows.jump {time : Nat} (story : Plot size marks plot)
    (follows : w.Follows marks plot size limit measure) (rests : w.move? = none)
    (timer : w.nextTimer? = some time) :
    ∃ less, less < measure ∧ (w.jump time).Follows marks plot size limit less := by
  obtain ⟨⟨rank, cast, plotted, drawn, low, rfl⟩, tidy, rfl⟩ := follows
  obtain ⟨draws, tidied, effort, now, length, later, index, here, waits⟩ :=
    drawn.jump tidy rests timer
  obtain ⟨less, smaller, follows⟩ := story.jumped rank _ cast plotted index here time waits later
  exact ⟨(w.jump time).weight less, weight_lt tidied length (by omega),
    ⟨less, cast, now.symm ▸ follows, draws, by omega, rfl⟩, tidied, length⟩

/-- A world that follows a plot comes to a point where nothing moves. -/
theorem Follows.run (story : Plot size marks plot)
    (follows : w.Follows marks plot size limit measure) (enough : measure < fuel)
    (woken : World → Bool) :
    ∃ less, less ≤ measure ∧ (w.run none woken fuel).Follows marks plot size limit less ∧
      (w.run none woken fuel).move? = none ∧
      (woken (w.run none woken fuel) = true ∨ (w.run none woken fuel).nextTimer? = none) :=
  exists_rest_of_run (fun _ _ _ follows moved => follows.move story moved)
    (fun _ _ _ follows rests timer => follows.jump story rests timer) fuel measure w enough follows

end World

end TargetWakeTime.Simulation
