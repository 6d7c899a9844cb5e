import TargetWakeTime.Proofs.Simulation.Scene
import TargetWakeTime.Simulation.Network

/-!
Contract: flushing all nodes of a network, until everyone rests.

Owns:
- settled worlds, which are calm, with nothing left to do and no effort left;
- that a flush ends where nothing moves, and that a second flush of the busy station ends when it rests;
- that settling a network in a scene leads to a settled world.

After the first flush nothing is on its way but a confirm for the busy station. Its second flush waits
behind that confirm. Both are reached long before patience runs out, since every flush adds little to
what is left to be done.
-/

namespace TargetWakeTime.Simulation

namespace World

variable {w v : World} {index stations number limit measure size : Nat} {flow : UInt8} {marked : Bool}
  {n : Node} {cast : Cast} {plot : Nat → Nat → Cast → Prop} {marking : Nat → Bool} {rank : Nat}

/-- Everyone rests, nothing moves, and no effort is left. -/
structure Settled (stations : Nat) (w : World) : Prop where
  exists_cast : ∃ cast, Calm stations cast ∧ w.Draws (fun _ => false) cast
  tidy : w.Tidy fun _ => False
  length : w.nodes.length = stations + 1
  ready : w.ready = []
  effort : w.effort = 0

/-! ### A flush begins -/

/-- A node's worker has someone wait for it. -/
def awaited (index : Nat) (n : Node) (w : World) : World :=
  w.putNode index { n with interface := n.interface.requestFlush }

/-- A worker that was not stopped is waited for. -/
theorem flush_eq (found : w.nodes[index]? = some n)
    (goesOn : n.interface.worker.stage ≠ .stopped) :
    w.flush index = (w.awaited index n).await fun w =>
      w.nodeSatisfies index (·.interface.isFlushed) := by
  have waits : w.nodeSatisfies index (·.interface.isStopped) = false := by
    rw [nodeSatisfies, node?, found]
    simpa [Interface.isStopped] using goesOn
  rw [flush, waits, if_neg Bool.false_ne_true, modifyInterface, modifyNode_of_node found, awaited]

/-- Little is added to what is left. -/
theorem weight_awaited (rank : Nat) (found : w.nodes[index]? = some n)
    (more : n.interface.requestFlush.worker.effort ≤ n.interface.worker.effort + 2) :
    (w.awaited index n).weight rank ≤ w.weight rank + 3 * (w.nodes.length + 1) := by
  have change := effort_putNode (m := { n with interface := n.interface.requestFlush }) found
  have turns : (w.awaited index n).ready.length ≤ w.ready.length + 1 := by
    show (if _ then _ else _ : List Nat).length ≤ _
    split
    · exact Nat.le_of_eq List.length_append
    · exact Nat.le_succ _
  have effort : (w.awaited index n).effort ≤ w.effort + 2 := by
    have more : ({ n with interface := n.interface.requestFlush } : Node).interface.worker.effort ≤
      n.interface.worker.effort + 2 := more
    rw [awaited]
    omega
  have product := Nat.mul_le_mul_left (w.nodes.length + 1)
    (show 4 * rank + (w.awaited index n).effort ≤ 4 * rank + w.effort + 2 by omega)
  rw [Nat.mul_add _ _ 2] at product
  rw [weight, weight, awaited, length_putNode, ← awaited]
  omega

theorem Follows.awaited (follows : w.Follows marking plot size limit measure)
    (found : w.nodes[index]? = some n) :
    ∃ more, more ≤ measure + 3 * (size + 1) ∧
      (w.awaited index n).Follows marking plot size limit more := by
  obtain ⟨⟨rank, cast, plotted, drawn, low, rfl⟩, tidy, rfl⟩ := follows
  obtain ⟨draws, more⟩ := (drawn.nodes index n found).requestFlush (marking index) .inl
  have here := lt_of_node found
  have same := drawn.putNode here draws
  rw [Cast.set_same] at same
  exact ⟨_, weight_awaited rank found more, ⟨rank, cast, plotted, same, low, rfl⟩,
    (tidy.putNode here).mono fun _ sleeps _ => sleeps.1, length_putNode⟩

/-! ### Where nothing moves -/

/-- Where nothing moves, at most a confirm for the busy station is on its way. -/
theorem Draws.rank_of_still (drawn : w.Draws marking cast) (tidy : w.Tidy fun _ => False)
    (rests : w.move? = none) (scene : Scene stations number flow marked rank w.now cast)
    (here : number < stations) (length : w.nodes.length = stations + 1) :
    rank ≤ 3 ∧ ((cast (number + 1)).activity = .resting → rank = 0) ∧
      ((cast (number + 1)).activity = .resting ∨
        ∃ event due status, (cast (number + 1)).activity = .awaiting event due status) := by
  have still {index : Nat} (there : index < stations + 1) : (cast index).activity = .resting ∨
      ∃ event due status, (cast index).activity = .awaiting event due status := by
    obtain ⟨n, found⟩ := exists_node length there
    have waits := tidy.still (move?_eq_none_iff.mp rests).1 found
    exact ((drawn.nodes index n found).still_of_canWork waits).imp_left (·.1)
  have station := still (Nat.succ_lt_succ here)
  have access : (cast 0).activity = .resting := by
    rcases still (Nat.succ_pos stations) with resting | ⟨event, due, status, awaits⟩
    · exact resting
    · have untimed := scene.exchange.untimed_access
      rw [Sketch.timer?, awaits] at untimed
      cases untimed
  obtain ⟨low, ends⟩ := scene.exchange.rank_of_still station access
  exact ⟨low, ends, station⟩

/-- The busy station waits at most for a confirm, and someone waits behind that. -/
theorem Follows.mark
    (follows : w.Follows (marks number marked) (Scene stations number flow marked) (stations + 1) limit
      measure)
    (rests : w.move? = none) (here : number < stations) (found : w.nodes[number + 1]? = some n) :
    ∃ more, more ≤ measure + 3 * (stations + 2) ∧
      (w.awaited (number + 1) n).Follows (marks number true) (Scene stations number flow true)
        (stations + 1) limit more := by
  obtain ⟨⟨rank, cast, scene, drawn, low, rfl⟩, tidy, length⟩ := follows
  obtain ⟨early, -, still⟩ := drawn.rank_of_still tidy rests scene here length
  obtain ⟨draws, more⟩ := (drawn.nodes _ n found).requestFlush true fun _ => .inr still
  have within := lt_of_node found
  have own : marks number true (number + 1) = true := by simp [marks]
  have same : (w.awaited (number + 1) n).Draws (marks number true)
      (cast.set (number + 1) (cast (number + 1))) := by
    refine draws_putNode drawn.air (fun other m apart there => ?_) within (own.symm ▸ draws)
    have others (mark : Bool) : marks number mark other = false := by simp [marks, apart]
    have drawn := drawn.nodes other m there
    rw [others] at drawn ⊢
    exact drawn
  rw [Cast.set_same] at same
  have weight := weight_awaited rank found more
  rw [length] at weight
  exact ⟨_, weight, ⟨rank, cast, { scene with early := fun _ => early }, same, low, rfl⟩,
    (tidy.putNode within).mono fun _ sleeps _ => sleeps.1, length_putNode.trans length⟩

/-! ### A flush ends -/

/-- Once nobody waits behind its confirm any more, the busy station rests. -/
theorem Follows.rested
    (follows : w.Follows (marks number true) (Scene stations number flow true) (stations + 1) limit measure)
    (rests : w.move? = none) (here : number < stations)
    (ended : w.nodeSatisfies (number + 1) (·.interface.isFlushed) = true ∨ w.nextTimer? = none) :
    w.Follows (marks number false) (Scene stations number flow false) (stations + 1) 0 measure := by
  obtain ⟨⟨rank, cast, scene, drawn, low, rfl⟩, tidy, length⟩ := follows
  obtain ⟨early, ends, still⟩ := drawn.rank_of_still tidy rests scene here length
  obtain ⟨n, found⟩ := exists_node length (Nat.succ_lt_succ here)
  have draws := drawn.nodes _ n found
  have resting : (cast (number + 1)).activity = .resting := by
    rcases still with resting | ⟨event, due, status, awaits⟩
    · exact resting
    · rcases ended with flushed | timeless
      · have marked := draws.marks (by simp [marks])
        rw [awaits] at marked
        have marked : .flush ∈ n.interface.worker.inbox := marked
        rw [nodeSatisfies, node?, found] at flushed
        simp [Interface.isFlushed, marked] at flushed
      · have timer := draws.nextTimer? (tidy.still (move?_eq_none_iff.mp rests).1 found)
        rw [Sketch.timer?, awaits] at timer
        have listed : due ∈ w.nodes.filterMap (·.nextTimer?) :=
          List.mem_filterMap.mpr ⟨n, List.mem_of_getElem? found, timer⟩
        rw [World.nextTimer?, List.min?_eq_none_iff] at timeless
        rw [timeless] at listed
        cases listed
  obtain rfl := ends resting
  refine ⟨⟨0, cast, { scene with early := fun _ => early }, ⟨drawn.air, fun index m there => ?_⟩,
    Nat.le_refl 0, rfl⟩, tidy, length⟩
  exact { drawn.nodes index m there with marks := fun isMarked => by cases isMarked }

/-- A flush comes to a point where nothing moves. -/
theorem Follows.flush (follows : w.Follows marking plot size limit measure)
    (story : Plot size marking plot) (there : index < size)
    (enough : measure + 3 * (size + 1) < patience) :
    ∃ more, more ≤ measure + 3 * (size + 1) ∧
      (w.flush index).Follows marking plot size limit more ∧ (w.flush index).move? = none := by
  obtain ⟨n, found⟩ := exists_node follows.length there
  obtain ⟨more, bound, waits⟩ := follows.awaited found
  obtain ⟨rank, cast, -, drawn, -, -⟩ := follows.exists_cast
  rw [flush_eq found (drawn.nodes index n found).goesOn]
  obtain ⟨less, below, after, rests, -⟩ :=
    waits.run story (Nat.lt_of_le_of_lt bound enough)
      fun w => w.nodeSatisfies index (·.interface.isFlushed)
  exact ⟨less, by omega, after, rests⟩

/-- Flushes one after the other. -/
theorem Follows.flushes (follows : w.Follows marking plot size limit measure)
    (story : Plot size marking plot) (indices : List Nat) (inside : ∀ index ∈ indices, index < size)
    (enough : measure + indices.length * (3 * (size + 1)) < patience) :
    ∃ more, more ≤ measure + indices.length * (3 * (size + 1)) ∧
      (indices.foldl (fun w index => w.flush index) w).Follows marking plot size limit more ∧
      (w.move? = none ∨ indices ≠ [] →
        (indices.foldl (fun w index => w.flush index) w).move? = none) := by
  induction indices generalizing w measure with
  | nil => exact ⟨measure, Nat.le_add_right .., follows, fun rests => rests.elim id (absurd rfl)⟩
  | cons first rest inductionHypothesis =>
      rw [List.length_cons, Nat.succ_mul] at enough ⊢
      obtain ⟨more, bound, after, rests⟩ := follows.flush story
        (inside first List.mem_cons_self) (by omega)
      obtain ⟨most, below, last, still⟩ := inductionHypothesis after
        (fun index member => inside index (List.mem_cons_of_mem _ member)) (by omega)
      exact ⟨most, by omega, last, fun _ => still (.inl rests)⟩

/-- Where nothing moves, a flush of the busy station ends when it rests. -/
theorem Follows.flush_busy
    (follows : w.Follows (marks number marked) (Scene stations number flow marked) (stations + 1) limit
      measure)
    (rests : w.move? = none) (few : stations ≤ 64) (here : number < stations) (small : flow.toNat < 8)
    (enough : measure + 3 * (stations + 2) < patience) :
    ∃ more, more ≤ measure + 3 * (stations + 2) ∧
      (w.flush (number + 1)).Follows (marks number false) (Scene stations number flow false)
        (stations + 1) 0 more ∧ (w.flush (number + 1)).move? = none := by
  obtain ⟨n, found⟩ := exists_node follows.length (Nat.succ_lt_succ here)
  obtain ⟨more, bound, waits⟩ := follows.mark rests here found
  obtain ⟨rank, cast, -, drawn, -, -⟩ := follows.exists_cast
  rw [flush_eq found (drawn.nodes _ n found).goesOn]
  obtain ⟨less, below, after, still, ended⟩ :=
    waits.run (plot_scene few here small true) (Nat.lt_of_le_of_lt bound enough)
      fun w => w.nodeSatisfies (number + 1) (·.interface.isFlushed)
  exact ⟨less, by omega, after.rested still here ended, still⟩

/-- Where nothing moves and the cast is calm, the world is settled. -/
theorem Follows.settled (follows : w.Follows (fun _ => false) plot (stations + 1) limit measure)
    (calm : ∀ rank now cast, rank ≤ limit → plot rank now cast → Calm stations cast)
    (rests : w.move? = none) : w.Settled stations := by
  obtain ⟨⟨rank, cast, plotted, drawn, low, -⟩, tidy, length⟩ := follows
  have calm := calm rank _ cast low plotted
  have effortless (n : Node) (member : n ∈ w.nodes) : n.interface.worker.effort = 0 := by
    obtain ⟨index, found⟩ := List.getElem?_of_mem member
    have resting := calm.still index (length ▸ lt_of_node found)
    rcases (drawn.nodes index n found).still_of_canWork (tidy.still (move?_eq_none_iff.mp rests).1 found) with
      ⟨-, none⟩ | ⟨event, due, status, awaits⟩
    · exact none
    · rw [resting] at awaits
      cases awaits
  exact
    { exists_cast := ⟨cast, calm, drawn⟩
      tidy
      length
      ready := (move?_eq_none_iff.mp rests).1
      effort := effort_eq_zero effortless }

end World

/-! ### Settling a network -/

namespace Network

variable {network : Network} {stations number limit measure : Nat} {flow : UInt8}

/-- The nodes that are flushed in each round. -/
def flushed (stations : Nat) : List Nat := (List.range stations).map stationNode ++ [accessPoint]

theorem length_flushed (stations : Nat) : (flushed stations).length = stations + 1 := by
  simp [flushed]

theorem lt_of_mem_flushed {index : Nat} (member : index ∈ flushed stations) : index < stations + 1 := by
  simp only [flushed, List.mem_append, List.mem_map, List.mem_range, List.mem_singleton] at member
  rcases member with ⟨i, there, rfl⟩ | rfl
  · exact Nat.succ_lt_succ there
  · exact Nat.succ_pos stations

theorem world_settle (length : network.world.nodes.length = stations + 1) :
    network.settle.world =
      (flushed stations ++ flushed stations ++ flushed stations).foldl (fun w index => w.flush index)
        network.world := by
  have size : network.size = stations := by rw [Network.size, length, Nat.add_sub_cancel]
  show ((_ ++ _ ++ _ : List Nat).foldl _ _) = _
  rw [size]
  rfl

/-- What so many flushes add to what is left to be done. -/
theorem cost_le (few : stations ≤ 64) {count : Nat} (bound : count ≤ 195) :
    count * (3 * (stations + 1 + 1)) ≤ 195 * 198 :=
  Nat.mul_le_mul bound (by omega)

/-- A calm network settles. -/
theorem settled_of_calm
    (follows : network.world.Follows (fun _ => false) (fun rank _ cast => rank = 0 ∧ Calm stations cast)
      (stations + 1) limit measure)
    (few : stations ≤ 64) (enough : measure < 900000) : network.settle.world.Settled stations := by
  have patient : World.patience = 1000000 := rfl
  let nodes := flushed stations ++ flushed stations ++ flushed stations
  have cost := cost_le few (show nodes.length ≤ 195 by
    simp only [nodes, List.length_append, length_flushed]
    omega)
  obtain ⟨more, -, last, still⟩ := follows.flushes (plot_calm stations) nodes
    (fun index member => lt_of_mem_flushed (by simpa [nodes] using member)) (by omega)
  rw [world_settle follows.length]
  refine last.settled (fun _ _ _ _ calm => calm.2) (still (.inr ?_))
  simp [nodes, flushed]

/-- A network in a scene settles. -/
theorem settled_of_scene
    (follows : network.world.Follows (marks number false) (Scene stations number flow false)
      (stations + 1) limit measure)
    (few : stations ≤ 64) (here : number < stations) (small : flow.toNat < 8)
    (enough : measure < 900000) : network.settle.world.Settled stations := by
  have busy : number + 1 ∈ flushed stations :=
    List.mem_append_left _ (List.mem_map_of_mem (List.mem_range.mpr here))
  obtain ⟨first, second, split⟩ := List.append_of_mem busy
  have order : flushed stations ++ flushed stations ++ flushed stations =
      (flushed stations ++ first) ++ (number + 1) :: (second ++ flushed stations) := by
    calc flushed stations ++ flushed stations ++ flushed stations
        = flushed stations ++ (first ++ (number + 1) :: second) ++ flushed stations := by rw [← split]
      _ = (flushed stations ++ first) ++ (number + 1) :: (second ++ flushed stations) := by simp
  have parts : first.length + second.length = stations := by
    have whole := congrArg List.length split
    rw [length_flushed, List.length_append, List.length_cons] at whole
    omega
  have patient : World.patience = 1000000 := rfl
  have story := plot_scene few here small false
  let before := flushed stations ++ first
  let after := second ++ flushed stations
  have costBefore := cost_le few (show before.length ≤ 195 by
    simp only [before, List.length_append, length_flushed]
    omega)
  have costAfter := cost_le few (show after.length ≤ 195 by
    simp only [after, List.length_append, length_flushed]
    omega)
  have insideBefore (index : Nat) (member : index ∈ before) : index < stations + 1 :=
    lt_of_mem_flushed ((List.mem_append.mp member).elim id fun early =>
      split ▸ List.mem_append_left _ early)
  have insideAfter (index : Nat) (member : index ∈ after) : index < stations + 1 :=
    lt_of_mem_flushed ((List.mem_append.mp member).elim
      (fun late => split ▸ List.mem_append_right _ (List.mem_cons_of_mem _ late)) id)
  obtain ⟨most, boundMost, moved, still⟩ := follows.flushes story before insideBefore (by omega)
  have rests := still (.inr (List.append_ne_nil_of_left_ne_nil (List.ne_nil_of_mem busy) first))
  obtain ⟨less, boundLess, rested, quiet⟩ := moved.flush_busy rests few here small (by omega)
  obtain ⟨least, -, last, ends⟩ := rested.flushes story after insideAfter (by omega)
  rw [world_settle follows.length, order, List.foldl_append, List.foldl_cons]
  refine last.settled (fun rank now cast low scene => ?_) (ends (.inl quiet))
  obtain rfl := Nat.le_zero.mp low
  exact scene.calm small

end Network

end TargetWakeTime.Simulation
