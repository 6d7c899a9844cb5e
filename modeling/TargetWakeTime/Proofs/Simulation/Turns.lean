import Mathlib.Algebra.GroupWithZero.Nat
import TargetWakeTime.Proofs.Interface.Agenda
import TargetWakeTime.Simulation.World

/-!
Contract: how a world moves, whatever its nodes do.

Owns:
- tidy worlds, in which every worker that can go on has a turn coming, and no one has two;
- what a step, a delivery and a jump of the clock change, and that all of them keep a world tidy;
- the effort that is left to all workers together;
- runs that end: if every move and every jump brings a measure down, a run comes to a point where
  nothing moves, within as many moves.
-/

namespace TargetWakeTime.Simulation

/-- A caller can make a step on the channel exactly if there is one. -/
theorem Node.isSome_step? (now : Nat) (caller : Caller) (n : Node) :
    (n.step? now caller).isSome = n.canStep now caller := by
  unfold Node.step? Node.canStep
  split
  case isTrue held => simp [held, Host.Bus.step?]
  case isFalse free => simp [free]

namespace World

variable {w : World} {index other : Nat} {m n : Node}

/-! ### Putting nodes in place -/

theorem getElem?_putNode (here : index < w.nodes.length) :
    (w.putNode index m).nodes[other]? = if other = index then some m else w.nodes[other]? := by
  show (w.nodes.set index m)[other]? = _
  rw [List.getElem?_set]
  by_cases same : other = index
  · simp [same, here]
  · rw [if_neg (Ne.symm same), if_neg same]

theorem lt_of_node {nodes : List Node} (found : nodes[index]? = some n) : index < nodes.length :=
  (List.getElem?_eq_some_iff.mp found).1

theorem exists_node {size : Nat} (length : w.nodes.length = size) (here : index < size) :
    ∃ n, w.nodes[index]? = some n :=
  ⟨_, List.getElem?_eq_getElem (length.symm ▸ here)⟩

theorem modifyNode_of_node {f : Node → Node} (found : w.nodes[index]? = some n) :
    w.modifyNode index f = w.putNode index (f n) := by
  rw [modifyNode, node?, found]

theorem modifyNode_of_nobody {f : Node → Node} (absent : w.nodes[index]? = none) :
    w.modifyNode index f = w := by
  rw [modifyNode, node?, absent]

@[simp] theorem length_putNode : (w.putNode index m).nodes.length = w.nodes.length :=
  List.length_set

/-- Every worker that can go on has a turn coming, unless it is one that is asleep. No one has two
turns coming. -/
structure Tidy (asleep : Nat → Prop) (w : World) : Prop where
  awake : ∀ index n, w.nodes[index]? = some n → n.canWork w.now = true → asleep index ∨ index ∈ w.ready
  once : w.ready.Nodup
  inside : ∀ index ∈ w.ready, index < w.nodes.length

theorem Tidy.mono {asleep others : Nat → Prop} (tidy : w.Tidy asleep)
    (fewer : ∀ index, asleep index → index < w.nodes.length → others index) : w.Tidy others where
  awake index n found able := (tidy.awake index n found able).imp_left
    fun sleeps => fewer index sleeps (lt_of_node found)
  once := tidy.once
  inside := tidy.inside

/-- Whoever is put in place is no longer asleep. -/
theorem Tidy.putNode {asleep : Nat → Prop} (tidy : w.Tidy asleep) (here : index < w.nodes.length) :
    (w.putNode index m).Tidy fun other => asleep other ∧ other ≠ index := by
  have ready : (w.putNode index m).ready =
      if m.canWork w.now && !w.ready.contains index then w.ready ++ [index] else w.ready := rfl
  refine ⟨fun other n found able => ?_, ?_, ?_⟩
  · rw [getElem?_putNode here] at found
    rw [ready]
    by_cases same : other = index
    · rw [if_pos same] at found
      obtain rfl := Option.some.inj found
      right
      have able : m.canWork w.now = true := able
      cases waits : w.ready.contains index with
      | true =>
          rw [able, if_neg (by simp)]
          exact same ▸ List.contains_iff_mem.mp waits
      | false =>
          rw [able, if_pos (by simp)]
          exact List.mem_append_right _ (same ▸ List.mem_singleton_self _)
    · rw [if_neg same] at found
      rcases tidy.awake other n found able with sleeps | waits
      · exact .inl ⟨sleeps, same⟩
      · right
        split
        · exact List.mem_append_left _ waits
        · exact waits
  · rw [ready]
    split
    case isTrue new =>
      have absent : index ∉ w.ready := by simpa using (Bool.and_eq_true_iff.mp new).2
      exact List.nodup_append.mpr ⟨tidy.once, List.pairwise_singleton _ _, fun a member b single same =>
        absent (List.mem_singleton.mp single ▸ same ▸ member)⟩
    case isFalse => exact tidy.once
  · intro other waits
    rw [length_putNode]
    rw [ready] at waits
    split at waits
    · rcases List.mem_append.mp waits with before | new
      · exact tidy.inside other before
      · exact List.mem_singleton.mp new ▸ here
    · exact tidy.inside other waits

/-- Where no worker has a turn coming, none can go on. -/
theorem Tidy.still (tidy : w.Tidy fun _ => False) (rests : w.ready = [])
    (found : w.nodes[index]? = some n) : n.canWork w.now = false := by
  refine Bool.eq_false_iff.mpr fun able => ?_
  rcases tidy.awake index n found able with never | waits
  · exact never
  · rw [rests] at waits
    cases waits

theorem Tidy.length_ready {asleep : Nat → Prop} (tidy : w.Tidy asleep) :
    w.ready.length ≤ w.nodes.length := by
  have within : w.ready ⊆ List.range w.nodes.length := fun index member =>
    List.mem_range.mpr (tidy.inside index member)
  simpa using tidy.once.length_le_of_subset within

theorem Tidy.modifyNode {asleep : Nat → Prop} {f : Node → Node} (tidy : w.Tidy asleep) (index : Nat) :
    (w.modifyNode index f).Tidy fun other => asleep other ∧ other ≠ index := by
  cases found : w.nodes[index]? with
  | none =>
      rw [modifyNode_of_nobody found]
      have outside := List.getElem?_eq_none_iff.mp found
      exact tidy.mono fun other sleeps here => ⟨sleeps, by omega⟩
  | some n =>
      rw [modifyNode_of_node found]
      exact tidy.putNode (lt_of_node found)

/-! ### All nodes at once -/

theorem now_modifyNode {f : Node → Node} (index : Nat) (w : World) :
    (w.modifyNode index f).now = w.now := by
  unfold modifyNode
  split <;> rfl

theorem radio_modifyNode {f : Node → Node} (index : Nat) (w : World) :
    (w.modifyNode index f).radio = w.radio := by
  unfold modifyNode
  split <;> rfl

theorem getElem?_modifyNode {f : Node → Node} :
    (w.modifyNode index f).nodes[other]? =
      if other = index then w.nodes[index]?.map f else w.nodes[other]? := by
  cases found : w.nodes[index]? with
  | none =>
      rw [modifyNode_of_nobody found]
      split
      case isTrue same => rw [same, found]; rfl
      case isFalse => rfl
  | some n =>
      rw [modifyNode_of_node found, getElem?_putNode (lt_of_node found)]
      rfl

/-- What changes if each of these nodes is changed in its turn. -/
structure Changed (f : Node → Node) (indices : List Nat) (w v : World) : Prop where
  now : v.now = w.now
  radio : v.radio = w.radio
  nodes : ∀ index, v.nodes[index]? =
    if index ∈ indices then w.nodes[index]?.map f else w.nodes[index]?
  tidy : ∀ asleep, w.Tidy asleep → v.Tidy fun index => asleep index ∧ index ∉ indices

theorem changed_foldl {f : Node → Node} {indices : List Nat} (once : indices.Nodup) (w : World) :
    Changed f indices w (indices.foldl (fun w index => w.modifyNode index f) w) := by
  induction indices generalizing w with
  | nil =>
      exact ⟨rfl, rfl, fun _ => rfl, fun asleep tidy => tidy.mono fun _ sleeps _ =>
        ⟨sleeps, List.not_mem_nil⟩⟩
  | cons first rest inductionHypothesis =>
      obtain ⟨absent, restOnce⟩ := List.nodup_cons.mp once
      have later := inductionHypothesis restOnce (w.modifyNode first f)
      refine ⟨later.now.trans (now_modifyNode first w), later.radio.trans (radio_modifyNode first w),
        fun index => ?_, fun asleep tidy => ?_⟩
      · rw [List.foldl_cons, later.nodes index, getElem?_modifyNode]
        by_cases same : index = first
        · subst same
          simp [absent]
        · simp [same]
      · refine (later.tidy _ (tidy.modifyNode first)).mono fun index sleeps _ => ?_
        exact ⟨sleeps.1.1, fun member => (List.mem_cons.mp member).elim sleeps.1.2 sleeps.2⟩

/-- What changes if every node is changed. -/
structure Renewed (f : Node → Node) (w v : World) : Prop where
  now : v.now = w.now
  radio : v.radio = w.radio
  nodes : v.nodes = w.nodes.map f
  tidy : ∀ asleep, w.Tidy asleep → v.Tidy fun _ => False

theorem renewed_modifyNodes (f : Node → Node) (w : World) : Renewed f w (w.modifyNodes f) := by
  have changed : Changed f (List.range w.nodes.length) w (w.modifyNodes f) :=
    changed_foldl List.nodup_range w
  have nodes : (w.modifyNodes f).nodes = w.nodes.map f := by
    refine List.ext_getElem? fun index => (changed.nodes index).trans ?_
    rw [List.getElem?_map]
    split
    · rfl
    case isFalse outside =>
      rw [List.getElem?_eq_none_iff.mpr (by simpa using outside)]
      rfl
  refine ⟨changed.now, changed.radio, nodes, fun asleep tidy => ?_⟩
  refine (changed.tidy asleep tidy).mono fun index sleeps here => sleeps.2 (List.mem_range.mpr ?_)
  rwa [nodes, List.length_map] at here

/-! ### Steps -/

/-- The ways in which a worker's turn is used. -/
inductive Stepped (index : Nat) (w : World) : World → Prop where
  | nobody (absent : w.nodes[index]? = none) : Stepped index w w
  | still {n : Node} (found : w.nodes[index]? = some n) (stays : n.canWork w.now = false) :
      Stepped index w w
  | channel {n m : Node} (found : w.nodes[index]? = some n)
      (stepped : n.step? w.now .worker = some m) : Stepped index w (w.putNode index m)
  | worked {n : Node} {i : Interface} (found : w.nodes[index]? = some n)
      (work : n.interface.work = some (i, none)) :
      Stepped index w (w.putNode index { n with interface := i })
  | served {n : Node} {i : Interface} {request : Interface.Request}
      (found : w.nodes[index]? = some n) (work : n.interface.work = some (i, some request)) :
      Stepped index w ((w.putNode index { n with interface := i }).serve index i.address request)

theorem stepped_step (index : Nat) (w : World) : Stepped index w (w.step index) := by
  unfold step
  split
  case h_1 absent => exact .nobody absent
  case h_2 n found =>
    split
    case h_1 m stepped => exact .channel found stepped
    case h_2 blocked =>
      split
      case h_1 noWork =>
        refine .still found ?_
        have noStep := n.isSome_step? w.now .worker
        rw [blocked] at noStep
        rw [Node.canWork, noWork, ← noStep]
        rfl
      case h_2 i request work =>
        cases request with
        | none => exact .worked found work
        | some request => exact .served found work

theorem Tidy.serve {request : Interface.Request} (tidy : w.Tidy fun _ => False) (index : Nat)
    (source : MacAddress) : (w.serve index source request).Tidy fun _ => False := by
  have changed (f : Node → Node) {v : World} (index : Nat) (tidy : v.Tidy fun _ => False) :
      (v.modifyNode index f).Tidy fun _ => False :=
    (tidy.modifyNode index).mono fun _ sleeps _ => sleeps.1
  unfold World.serve
  cases request with
  | alarm | command => exact changed _ index tidy
  | transmit frame =>
      refine changed _ index ?_
      unfold transmit
      split
      · exact ⟨tidy.awake, tidy.once, tidy.inside⟩
      · split
        · exact changed _ _ tidy
        · exact tidy

/-- Whoever uses a turn has another one coming if it can go on. -/
theorem Tidy.step (tidy : w.Tidy (· = index)) : (w.step index).Tidy fun _ => False := by
  have put {n m : Node} (found : w.nodes[index]? = some n) :
      (w.putNode index m).Tidy fun _ => False :=
    (tidy.putNode (lt_of_node found)).mono fun _ sleeps _ => sleeps.2 sleeps.1
  have result := stepped_step index w
  generalize w.step index = v at result ⊢
  cases result with
  | nobody absent =>
      have outside := List.getElem?_eq_none_iff.mp absent
      exact tidy.mono fun other same here => by omega
  | still found stays =>
      refine ⟨fun other m foundOther able => ?_, tidy.once, tidy.inside⟩
      refine (tidy.awake other m foundOther able).imp_left fun same => ?_
      rw [same, found] at foundOther
      rw [← Option.some.inj foundOther, stays] at able
      cases able
  | channel found => exact put found
  | worked found => exact put found
  | served found => exact (put found).serve _ _

/-- A turn is a step; whoever used it and can go on keeps it. -/
theorem turn_eq (index : Nat) (rest : List Nat) (w : World) :
    ∃ ready, w.turn index rest = { { w with ready := rest }.step index with ready } ∧
      (({ w with ready := rest }.step index).ready.Nodup → ready.Nodup) ∧
      (∀ other, other ∈ ready ↔ other ∈ ({ w with ready := rest }.step index).ready) ∧
      (index ∉ ({ w with ready := rest }.step index).ready →
        ready = ({ w with ready := rest }.step index).ready) := by
  unfold turn
  dsimp only
  generalize World.step index { w with ready := rest } = v
  split
  case isTrue goesOn =>
    have waits : index ∈ v.ready := List.contains_iff_mem.mp goesOn
    refine ⟨index :: v.ready.filter (· ≠ index), rfl, fun once => ?_, fun other => ?_, fun gone => ?_⟩
    · exact List.nodup_cons.mpr ⟨by simp, once.filter _⟩
    · by_cases same : other = index
      · simp [same, waits]
      · simp [same]
    · exact absurd waits gone
  case isFalse => exact ⟨v.ready, rfl, id, fun _ => Iff.rfl, fun _ => rfl⟩

theorem Tidy.turn {rest : List Nat} (tidy : w.Tidy fun _ => False)
    (ready : w.ready = index :: rest) : (w.turn index rest).Tidy fun _ => False := by
  obtain ⟨absent, restOnce⟩ := List.nodup_cons.mp (ready ▸ tidy.once)
  have stepped : ({ w with ready := rest }.step index).Tidy fun _ => False := by
    refine Tidy.step ⟨fun other n found able => ?_, restOnce, fun other waits => ?_⟩
    · rcases tidy.awake other n found able with never | waits
      · exact never.elim
      · exact List.mem_cons.mp (ready ▸ waits)
    · exact tidy.inside other (ready ▸ List.mem_cons_of_mem _ waits)
  obtain ⟨order, turned, once, same, -⟩ := turn_eq index rest w
  rw [turned]
  exact
    { awake := fun other n found able => (stepped.awake other n found able).imp_right (same other).mpr
      once := once stepped.once
      inside := fun other waits => stepped.inside other ((same other).mp waits) }

/-! ### Effort -/

/-- The effort that is left to all workers together. -/
def effort (w : World) : Nat := (w.nodes.map (·.interface.worker.effort)).sum

theorem sum_set {nodes : List Node} (f : Node → Nat) (found : nodes[index]? = some n) :
    ((nodes.set index m).map f).sum + f n = (nodes.map f).sum + f m := by
  induction nodes generalizing index with
  | nil => simp at found
  | cons first rest inductionHypothesis =>
      cases index with
      | zero =>
          obtain rfl : first = n := by simpa using found
          simp only [List.set_cons_zero, List.map_cons, List.sum_cons]
          omega
      | succ index =>
          have inRest : rest[index]? = some n := by simpa using found
          have later := inductionHypothesis inRest
          simp only [List.set_cons_succ, List.map_cons, List.sum_cons]
          omega

theorem effort_putNode (found : w.nodes[index]? = some n) :
    (w.putNode index m).effort + n.interface.worker.effort =
      w.effort + m.interface.worker.effort :=
  sum_set (·.interface.worker.effort) found

theorem effort_modifyNodes {f : Node → Node}
    (same : ∀ n ∈ w.nodes, (f n).interface.worker.effort = n.interface.worker.effort) :
    (w.modifyNodes f).effort = w.effort := by
  rw [effort, (renewed_modifyNodes f w).nodes, effort, List.map_map]
  exact congrArg List.sum (List.map_congr_left same)

theorem effort_eq_zero (effortless : ∀ n ∈ w.nodes, n.interface.worker.effort = 0) : w.effort = 0 := by
  have zero : w.nodes.map (·.interface.worker.effort) = w.nodes.map fun _ => 0 :=
    List.map_congr_left effortless
  rw [effort, zero, List.map_const', List.sum_replicate_nat, Nat.mul_zero]

/-! ### Moves and runs -/

theorem move?_eq_none_iff : w.move? = none ↔
    w.ready = [] ∧ w.nextTimer?.any (· ≤ w.now) = false := by
  unfold move?
  cases ready : w.ready with
  | cons => simp
  | nil => simp

/-- The ways in which a world moves. -/
theorem move?_cases {v : World} (moved : w.move? = some v) :
    (∃ index rest, w.ready = index :: rest ∧ v = w.turn index rest) ∨
      w.ready = [] ∧ w.nextTimer?.any (· ≤ w.now) = true ∧ v = w.deliver := by
  unfold move? at moved
  cases ready : w.ready with
  | cons index rest =>
      rw [ready] at moved
      exact .inl ⟨index, rest, rfl, (Option.some.inj moved).symm⟩
  | nil =>
      rw [ready] at moved
      dsimp only at moved
      split at moved
      case isTrue due => exact .inr ⟨rfl, due, (Option.some.inj moved).symm⟩
      case isFalse => cases moved

/-- If every move and every jump of the clock keeps an invariant and brings its measure down, a run
comes to a point where nothing moves, and either is woken or has no timer left. -/
theorem exists_rest_of_run {invariant : Nat → World → Prop} {woken : World → Bool}
    (moves : ∀ measure w v, invariant measure w → w.move? = some v →
      ∃ less, less < measure ∧ invariant less v)
    (jumps : ∀ measure w time, invariant measure w → w.move? = none → w.nextTimer? = some time →
      ∃ less, less < measure ∧ invariant less (w.jump time)) :
    ∀ fuel measure w, measure < fuel → invariant measure w →
      ∃ less, less ≤ measure ∧ invariant less (w.run none woken fuel) ∧
        (w.run none woken fuel).move? = none ∧
        (woken (w.run none woken fuel) = true ∨ (w.run none woken fuel).nextTimer? = none) := by
  intro fuel
  induction fuel with
  | zero => intro measure w enough; exact absurd enough (Nat.not_lt_zero _)
  | succ fuel inductionHypothesis =>
      intro measure w enough holds
      unfold run
      cases moved : w.move? with
      | some v =>
          obtain ⟨less, smaller, after⟩ := moves measure w v holds moved
          obtain ⟨least, bound, rest⟩ := inductionHypothesis less v (by omega) after
          exact ⟨least, by omega, rest⟩
      | none =>
          dsimp only
          split
          case isTrue awake => exact ⟨measure, Nat.le_refl _, holds, moved, .inl awake⟩
          case isFalse =>
            cases timer : w.nextTimer? with
            | none => exact ⟨measure, Nat.le_refl _, holds, moved, .inr timer⟩
            | some time =>
                obtain ⟨less, smaller, after⟩ := jumps measure w time holds moved timer
                obtain ⟨least, bound, rest⟩ := inductionHypothesis less _ (by omega) after
                exact ⟨least, by omega, rest⟩

end World

end TargetWakeTime.Simulation
