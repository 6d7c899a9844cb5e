import TargetWakeTime.Proofs.Simulation.Sketch

/-!
Contract: a local operation that asks the chip while nothing else is going on.

Owns:
- silent nodes, at which nothing happens whatever the time;
- what the node of the operation goes through: its command is executed at once, the confirm arrives, and
  the operation gets its answer;
- that the clock goes no further than to the confirm, and that no other node changes.

The operation wakes up for the confirm, not for its deadline, because the confirm comes earlier.
-/

namespace TargetWakeTime.Simulation

open Host (Bus Channel Chip Command)

namespace Node

/-- A node at which nothing happens until something comes in from outside. -/
structure Silent (n : Node) : Prop where
  noWork : n.interface.work = none
  idle : n.bus.Idle
  empty : n.bus.channel.queue = []
  alarms : n.alarms = []

/-- The operation's command waits for the channel. -/
structure Asks (command : Command) (n : Node) : Prop where
  noWork : n.interface.work = none
  alarms : n.alarms = []
  unanswered : n.answer = none
  prompt : n.bus.Prompt
  idle : n.bus.Idle
  queued : ∃ wait, n.bus.channel.queue = [{ caller := .operation, command, wait }]
  feasible : (Chip.execute n.bus.link.installed command).1 = 0

/-- The chip has executed the operation's command, and confirms it at the time `due`. -/
structure Hopes (command : Command) (now due : Nat) (n : Node) : Prop where
  noWork : n.interface.work = none
  alarms : n.alarms = []
  unanswered : n.answer = none
  prompt : n.bus.Prompt
  empty : n.bus.channel.queue = []
  awaited : ∃ wait, n.bus.Awaited now due { caller := .operation, command, wait, status := 0 }

/-- The confirm has come. -/
structure Hears (command : Command) (n : Node) : Prop where
  noWork : n.interface.work = none
  alarms : n.alarms = []
  prompt : n.bus.Prompt
  empty : n.bus.channel.queue = []
  answered : ∃ wait, n.bus.Answered { caller := .operation, command, wait, status := 0 }

variable {n m : Node} {now due time : Nat} {command : Command}

/-! ### Nodes that wait -/

theorem canWork_of_waiting (noWork : n.interface.work = none) (free : n.holds .worker = false)
    (time : Nat) : n.canWork time = false := by
  rw [canWork, noWork, canStep, free]
  rfl

theorem Silent.free (silent : n.Silent) (caller : Caller) : n.holds caller = false := by
  simp [holds, silent.idle.holder?_of_empty silent.empty]

theorem Silent.canWork (silent : n.Silent) (time : Nat) : n.canWork time = false :=
  canWork_of_waiting silent.noWork (silent.free .worker) time

theorem nextTimer?_of_still (silent : n.bus.link.replies = []) (free : n.holds .worker = false)
    (alarms : n.alarms = []) : n.nextTimer? = none := by
  rw [nextTimer?, deadline?, Bus.nextArrival?_of_silent silent, free, alarms]
  rfl

theorem Silent.nextTimer? (silent : n.Silent) : n.nextTimer? = none :=
  nextTimer?_of_still silent.idle.silent (silent.free .worker) silent.alarms

theorem Silent.deliver (silent : n.Silent) (now : Nat) : n.deliver now = n := by
  rw [deliver_of_noAlarms silent.alarms, Bus.deliver_of_silent silent.idle.silent]

/-! ### The course of the operation -/

theorem Asks.holds (asks : n.Asks command) : n.holds .operation = true ∧ n.holds .worker = false := by
  obtain ⟨wait, queued⟩ := asks.queued
  simp [Node.holds, asks.idle.holder?_of_queued queued]

theorem Hopes.holds (hopes : n.Hopes command now due) :
    n.holds .operation = true ∧ n.holds .worker = false := by
  obtain ⟨wait, awaited⟩ := hopes.awaited
  simp [Node.holds, awaited.holder?]

theorem Hears.holds (hears : n.Hears command) :
    n.holds .operation = true ∧ n.holds .worker = false := by
  obtain ⟨wait, answered⟩ := hears.answered
  simp [Node.holds, answered.holder?]

theorem Hopes.step? (hopes : n.Hopes command now due) (caller : Caller) : n.step? now caller = none := by
  obtain ⟨wait, awaited⟩ := hopes.awaited
  unfold Node.step?
  split
  · rw [awaited.step?]
    rfl
  · rfl

/-- The operation gets its answer. -/
theorem Hears.step? (hears : n.Hears command) (now : Nat) :
    ∃ m, n.step? now .operation = some m ∧ m.answer = some (.ok ()) ∧ m.interface = n.interface ∧
      m.bus.link.installed = n.bus.link.installed ∧ m.bus.Prompt ∧ m.Silent := by
  obtain ⟨wait, answered⟩ := hears.answered
  obtain ⟨r, bus, stepped, status, prompt, idle, queue, installed⟩ := answered.step? hears.prompt
  have succeeded : (Channel.outcomeOf r).map (fun _ => ()) = .ok () := by
    rw [Channel.outcomeOf, status, if_pos rfl]
    rfl
  refine ⟨{ n with bus, answer := some ((Channel.outcomeOf r).map fun _ => ()) }, ?_,
    congrArg some succeeded, rfl, installed, prompt,
    hears.noWork, idle, queue.trans hears.empty, hears.alarms⟩
  rw [Node.step?, if_pos hears.holds.1, stepped]
  rfl

theorem steps_of_none {caller : Caller} (waits : n.step? now caller = none) (count : Nat) :
    n.steps now caller count = n := by
  cases count with
  | zero => rfl
  | succ count => rw [steps, waits]

/-- An operation that has to wait after one step. -/
theorem operate_of_step (first : n.step? now .operation = some m)
    (second : m.step? now .operation = none) : n.operate now = m := by
  obtain ⟨count, bound⟩ : ∃ count, n.bus.channel.stepBound = count + 1 :=
    Nat.exists_eq_succ_of_ne_zero (Nat.ne_of_gt (Nat.mul_pos (Nat.succ_pos _) (Nat.succ_pos _)))
  rw [Node.operate, bound, steps, first]
  exact steps_of_none second count

/-- The operation has its command executed, and waits. -/
theorem Asks.operate (asks : n.Asks command) (now : Nat) :
    ∃ due, (n.operate now).Hopes command now due ∧ now ≤ due ∧
      (n.operate now).interface = n.interface ∧
      (n.operate now).bus.link.installed = (Chip.execute n.bus.link.installed command).2 := by
  obtain ⟨wait, queued⟩ := asks.queued
  obtain ⟨bus, stepped, prompt, empty, installed, awaited⟩ :=
    asks.idle.step?_of_queued now asks.prompt queued
  have first : n.step? now .operation = some { n with bus } := by
    rw [step?, if_pos asks.holds.1, stepped]
    rfl
  rw [asks.feasible] at awaited
  have hopes : ({ n with bus } : Node).Hopes command now (now + n.bus.link.settings.latency) :=
    ⟨asks.noWork, asks.alarms, asks.unanswered, prompt, empty, wait, awaited⟩
  rw [operate_of_step first (hopes.step? .operation)]
  exact ⟨_, hopes, Nat.le_add_right .., rfl, installed⟩

/-- The confirm arrives. -/
theorem Hopes.deliver (hopes : n.Hopes command now due) (arrived : due ≤ now) :
    (n.deliver now).Hears command ∧ (n.deliver now).interface = n.interface ∧
      (n.deliver now).bus.link.installed = n.bus.link.installed := by
  obtain ⟨wait, awaited⟩ := hopes.awaited
  obtain ⟨answered, prompt, empty, installed⟩ := awaited.deliver hopes.prompt arrived
  rw [deliver_of_noAlarms hopes.alarms]
  exact ⟨⟨hopes.noWork, hopes.alarms, prompt, empty.trans hopes.empty, wait, answered⟩, rfl, installed⟩

/-- The clock may go on until the confirm arrives. -/
theorem Hopes.later (hopes : n.Hopes command now due) (within : time ≤ due) :
    n.Hopes command time due := by
  obtain ⟨wait, awaited⟩ := hopes.awaited
  exact { hopes with awaited := ⟨wait, awaited.later within⟩ }

/-- The operation gets its answer. -/
theorem Hears.operate (hears : n.Hears command) (now : Nat) :
    (n.operate now).answer = some (.ok ()) ∧ (n.operate now).interface = n.interface ∧
      (n.operate now).bus.link.installed = n.bus.link.installed ∧ (n.operate now).bus.Prompt ∧
      (n.operate now).Silent := by
  obtain ⟨m, first, answer, interface, installed, prompt, silent⟩ := hears.step? now
  have second : m.step? now .operation = none := by
    rw [Node.step?, if_neg (by rw [silent.free]; exact Bool.false_ne_true)]
  rw [operate_of_step first second]
  exact ⟨answer, interface, installed, prompt, silent⟩

/-- The operation goes on for its confirm, and not before. -/
theorem Hears.canStep (hears : n.Hears command) (now : Nat) : n.canStep now .operation = true := by
  obtain ⟨m, first, -⟩ := hears.step? now
  rw [← n.isSome_step?, first]
  rfl

theorem Hopes.canStep (hopes : n.Hopes command now due) : n.canStep now .operation = false := by
  rw [← n.isSome_step?, hopes.step?]
  rfl

/-- The deadline is later than the confirm. -/
theorem Hopes.deadline? (hopes : n.Hopes command now due) :
    ∃ deadline, n.deadline? .operation = some deadline ∧ due < deadline := by
  obtain ⟨wait, awaited⟩ := hopes.awaited
  obtain ⟨deadline, found, early⟩ := awaited.deadline?
  exact ⟨deadline, (if_pos hopes.holds.1).trans found, early⟩

end Node

namespace World

variable {w v : World} {index : Nat} {m after : Node} {command : Command} {now due : Nat}

/-- A world in which only one node, and the time, may differ from what was before. -/
structure Beside (index : Nat) (w : World) (m : Node) (v : World) : Prop where
  air : v.radio = w.radio
  ready : v.ready = []
  nodes : ∀ other : Nat, v.nodes[other]? = if other = index then some m else w.nodes[other]?

/-- All nodes but one are silent. -/
def Hushed (index : Nat) (w : World) : Prop :=
  ∀ (other : Nat) (n : Node), other ≠ index → w.nodes[other]? = some n → n.Silent

theorem Beside.found (beside : Beside index w m v) : v.nodes[index]? = some m :=
  (beside.nodes index).trans (if_pos rfl)

theorem Beside.same {other : Nat} {n : Node} (beside : Beside index w m v) (hushed : Hushed index w)
    (there : v.nodes[other]? = some n) : other = index ∧ n = m ∨ n.Silent := by
  rw [beside.nodes other] at there
  split at there
  case isTrue same => exact .inl ⟨same, (Option.some.inj there).symm⟩
  case isFalse apart => exact .inr (hushed other n apart there)

/-- The node changes, and cannot go on by itself. -/
theorem Beside.put (beside : Beside index w m v) (waits : after.canWork v.now = false) :
    Beside index w after (v.putNode index after) where
  air := beside.air
  ready := by
    show (if after.canWork v.now && _ then _ else v.ready) = []
    rw [waits]
    exact beside.ready
  nodes other := by
    rw [getElem?_putNode (lt_of_node beside.found), beside.nodes]
    split <;> rfl

theorem Beside.modifyNode {f : Node → Node} (beside : Beside index w m v)
    (waits : (f m).canWork v.now = false) :
    Beside index w (f m) (v.modifyNode index f) := by
  rw [modifyNode_of_node beside.found]
  exact beside.put waits

/-- If no one can go on after a change, no turn comes up. -/
theorem ready_foldl {f : Node → Node} {indices : List Nat} (once : indices.Nodup)
    (rests : w.ready = [])
    (still : ∀ index ∈ indices, ∀ n, w.nodes[index]? = some n → (f n).canWork w.now = false) :
    (indices.foldl (fun w index => w.modifyNode index f) w).ready = [] := by
  induction indices generalizing w with
  | nil => exact rests
  | cons first rest inductionHypothesis =>
      obtain ⟨absent, restOnce⟩ := List.nodup_cons.mp once
      have ready : (w.modifyNode first f).ready = [] := by
        cases found : w.nodes[first]? with
        | none => rwa [modifyNode_of_nobody found]
        | some n =>
            rw [modifyNode_of_node found]
            show (if (f n).canWork w.now && _ then _ else w.ready) = []
            rw [still first List.mem_cons_self n found]
            exact rests
      refine inductionHypothesis restOnce ready fun index member n found => ?_
      have apart : index ≠ first := fun same => absent (same ▸ member)
      rw [getElem?_modifyNode, if_neg apart] at found
      rw [now_modifyNode]
      exact still index (List.mem_cons_of_mem _ member) n found

/-- A change of all nodes that leaves silent ones alone. -/
theorem Beside.modifyNodes {f : Node → Node} (beside : Beside index w m v) (hushed : Hushed index w)
    (kept : ∀ n : Node, n.Silent → f n = n) (waits : (f m).canWork v.now = false) :
    Beside index w (f m) (v.modifyNodes f) ∧ (v.modifyNodes f).now = v.now := by
  obtain ⟨now, radio, nodes, -⟩ := renewed_modifyNodes f v
  refine ⟨⟨radio.trans beside.air, ?_, fun other => ?_⟩, now⟩
  · refine ready_foldl List.nodup_range beside.ready fun other _ n there => ?_
    rcases beside.same hushed there with ⟨-, rfl⟩ | silent
    · exact waits
    · rw [kept n silent]
      exact silent.canWork v.now
  · rw [nodes, List.getElem?_map, beside.nodes other]
    split
    · rfl
    case isFalse apart =>
      cases there : w.nodes[other]? with
      | none => rfl
      | some n => rw [Option.map_some, kept n (hushed other n apart there)]

/-- The next timer is that of the node. -/
theorem Beside.nextTimer? (beside : Beside index w m v) (hushed : Hushed index w) :
    v.nextTimer? = m.nextTimer? := by
  have only (time : Nat) (listed : time ∈ v.nodes.filterMap (·.nextTimer?)) :
      m.nextTimer? = some time := by
    obtain ⟨n, member, timer⟩ := List.mem_filterMap.mp listed
    obtain ⟨other, there⟩ := List.getElem?_of_mem member
    rcases beside.same hushed there with ⟨-, rfl⟩ | silent
    · exact timer
    · rw [silent.nextTimer?] at timer
      cases timer
  unfold World.nextTimer?
  cases timer : m.nextTimer? with
  | none =>
      rw [List.min?_eq_none_iff, List.eq_nil_iff_forall_not_mem]
      intro time listed
      have found := only time listed
      rw [timer] at found
      cases found
  | some time =>
      refine List.min?_eq_some_iff.mpr ⟨?_, fun other listed => ?_⟩
      · exact List.mem_filterMap.mpr ⟨m, List.mem_of_getElem? beside.found, timer⟩
      · have found := only other listed
        rw [timer] at found
        exact Nat.le_of_eq (Option.some.inj found)

/-! ### The operation waits -/

/-- What the operation waits for, besides its deadline. -/
def canOperate (index : Nat) (w : World) : Bool := w.nodeSatisfies index (·.canStep w.now .operation)

theorem run_of_move {alarm : Option Nat} {woken : World → Bool} (moved : w.move? = some v) (moves : Nat) :
    w.run alarm woken (moves + 1) = v.run alarm woken moves := by
  conv => lhs; unfold run
  rw [moved]

theorem run_of_woken {alarm : Option Nat} {woken : World → Bool} (rests : w.move? = none)
    (awake : woken w = true) (moves : Nat) : w.run alarm woken (moves + 1) = w := by
  unfold run
  rw [rests]
  exact if_pos awake

/-- The clock jumps to a timer before the alarm. -/
theorem run_of_timer {alarm time : Nat} {woken : World → Bool} (rests : w.move? = none)
    (asleep : woken w = false) (timer : w.nextTimer? = some time) (before : time < alarm) (moves : Nat) :
    w.run (some alarm) woken (moves + 1) = (w.jump time).run (some alarm) woken moves := by
  conv => lhs; unfold run
  rw [rests, timer]
  dsimp only
  rw [asleep, if_neg Bool.false_ne_true, if_neg (Nat.not_le_of_lt before)]

/-- A command on its way has the confirm as its timer. -/
theorem nextTimer?_of_hopes (hopes : m.Hopes command now due) : m.nextTimer? = some due := by
  obtain ⟨wait, awaited⟩ := hopes.awaited
  rw [Node.nextTimer?, Node.deadline?, awaited.nextArrival?, hopes.holds.2, hopes.alarms]
  rfl

/-- The confirm comes in as soon as it is due, and wakes the operation. -/
theorem Beside.run_of_due (beside : Beside index w m v) (hushed : Hushed index w)
    (hopes : m.Hopes command v.now due) (arrived : due ≤ v.now) (alarm : Option Nat) (moves : Nat) :
    ∃ after, after.Hears command ∧ after.interface = m.interface ∧
      after.bus.link.installed = m.bus.link.installed ∧
      Beside index w after (v.run alarm (·.canOperate index) (moves + 2)) ∧
      (v.run alarm (·.canOperate index) (moves + 2)).now = v.now := by
  obtain ⟨hears, interface, installed⟩ := hopes.deliver arrived
  have waits := Node.canWork_of_waiting hears.noWork hears.holds.2 v.now
  obtain ⟨delivered, now⟩ := beside.modifyNodes hushed (fun n silent => silent.deliver v.now) waits
  have moved : v.move? = some v.deliver := by
    rw [move?, beside.ready, beside.nextTimer? hushed, nextTimer?_of_hopes hopes]
    simp [arrived]
  have rests : v.deliver.move? = none := by
    have timeless : (m.deliver v.now).nextTimer? = none := by
      obtain ⟨wait, answered⟩ := hears.answered
      exact Node.nextTimer?_of_still answered.silent hears.holds.2 hears.alarms
    rw [move?_eq_none_iff]
    refine ⟨delivered.ready, ?_⟩
    rw [show v.deliver.nextTimer? = _ from delivered.nextTimer? hushed, timeless]
    rfl
  have wakes : v.deliver.canOperate index = true := by
    have found : v.deliver.nodes[index]? = some (m.deliver v.now) := delivered.found
    rw [canOperate, nodeSatisfies, node?, found]
    exact hears.canStep _
  refine ⟨_, hears, interface, installed, ?_⟩
  have ends : v.run alarm (·.canOperate index) (moves + 2) = v.deliver := by
    rw [run_of_move moved, run_of_woken rests wakes]
  rw [ends]
  exact ⟨delivered, now⟩

/-- The operation waits for its confirm, and no longer. -/
theorem Beside.run_of_hopes (beside : Beside index w m v) (hushed : Hushed index w)
    (hopes : m.Hopes command v.now due) :
    ∃ after, after.Hears command ∧ after.interface = m.interface ∧
      after.bus.link.installed = m.bus.link.installed ∧
      Beside index w after (v.run (m.deadline? .operation) (·.canOperate index) patience) := by
  obtain ⟨deadline, alarm, early⟩ := hopes.deadline?
  rw [alarm, show patience = 999997 + 3 from rfl]
  rcases Nat.lt_or_ge v.now due with later | arrived
  · have timer := (beside.nextTimer? hushed).trans (nextTimer?_of_hopes hopes)
    have rests : v.move? = none := by
      rw [move?_eq_none_iff]
      refine ⟨beside.ready, ?_⟩
      rw [timer]
      simpa using later
    have asleep : v.canOperate index = false := by
      rw [canOperate, nodeSatisfies, node?, beside.found]
      exact hopes.canStep
    let clocked : World := { v with now := max v.now due }
    have still : m.canWork clocked.now = false :=
      Node.canWork_of_waiting hopes.noWork hopes.holds.2 _
    have before : Beside index w m clocked := ⟨beside.air, beside.ready, beside.nodes⟩
    obtain ⟨jumped, now⟩ := before.modifyNodes hushed (fun _ _ => rfl) still
    have onTime : (v.jump due).now = due := now.trans (Nat.max_eq_right (Nat.le_of_lt later))
    have hopesStill : m.Hopes command (v.jump due).now due :=
      hopes.later (Nat.le_of_eq onTime)
    obtain ⟨after, hears, interface, installed, result, -⟩ :=
      Beside.run_of_due (v := v.jump due) jumped hushed hopesStill (Nat.le_of_eq onTime.symm)
        (some deadline) 999997
    rw [run_of_timer rests asleep timer early]
    exact ⟨after, hears, interface, installed, result⟩
  · obtain ⟨after, hears, interface, installed, result, -⟩ :=
      beside.run_of_due hushed hopes arrived (some deadline) 999998
    exact ⟨after, hears, interface, installed, result⟩

theorem operate_of_answered (turns : Nat)
    (answered : (w.modifyNode index (·.operate w.now)).nodeSatisfies index (·.answer.isSome) = true) :
    w.operate index (turns + 1) = w.modifyNode index (·.operate w.now) :=
  if_pos answered

theorem operate_of_unanswered (turns : Nat)
    (unanswered : (w.modifyNode index (·.operate w.now)).nodeSatisfies index (·.answer.isSome) = false) :
    w.operate index (turns + 1) =
      operate index turns
        ((w.modifyNode index (·.operate w.now)).run
          (((w.modifyNode index (·.operate w.now)).node? index).bind (·.deadline? .operation))
          (·.canOperate index) patience) :=
  if_neg (by rw [unanswered]; exact Bool.false_ne_true)

/-- The operation goes on until it has its answer, which is the second time that it can. -/
theorem Beside.operate (beside : Beside index w m v) (hushed : Hushed index w)
    (asks : m.Asks command) (unchanged : (Chip.execute m.bus.link.installed command).2 = m.bus.link.installed)
    (turns : Nat) :
    ∃ after, Beside index w after (v.operate index (turns + 2)) ∧ after.answer = some (.ok ()) ∧
      after.interface = m.interface ∧ after.bus.link.installed = m.bus.link.installed ∧
      after.bus.Prompt ∧ after.Silent := by
  obtain ⟨due, hopes, -, interface, installed⟩ := asks.operate v.now
  have first := beside.modifyNode (f := (·.operate v.now))
    (Node.canWork_of_waiting hopes.noWork hopes.holds.2 v.now)
  have unanswered : (v.modifyNode index (·.operate v.now)).nodeSatisfies index (·.answer.isSome) = false := by
    rw [nodeSatisfies, node?, first.found]
    show (m.operate v.now).answer.isSome = false
    rw [hopes.unanswered]
    rfl
  have alarm : ((v.modifyNode index (·.operate v.now)).node? index).bind (·.deadline? .operation) =
      (m.operate v.now).deadline? .operation := by
    rw [node?, first.found]
    rfl
  have hopesThen : (m.operate v.now).Hopes command (v.modifyNode index (·.operate v.now)).now due := by
    rw [now_modifyNode]
    exact hopes
  rw [operate_of_unanswered (turns + 1) unanswered, alarm]
  obtain ⟨heard, hears, sameInterface, sameTable, waited⟩ := first.run_of_hopes hushed hopesThen
  generalize World.run _ _ _ _ = u at waited
  obtain ⟨answer, lastInterface, lastTable, prompt, silent⟩ := hears.operate u.now
  have second := waited.modifyNode (f := (·.operate u.now)) (silent.canWork u.now)
  have answered : (u.modifyNode index (·.operate u.now)).nodeSatisfies index (·.answer.isSome) = true := by
    rw [nodeSatisfies, node?, second.found]
    show (heard.operate u.now).answer.isSome = true
    rw [answer]
    rfl
  rw [operate_of_answered turns answered]
  exact ⟨_, second, answer, lastInterface.trans (sameInterface.trans interface),
    lastTable.trans (sameTable.trans (installed.trans unchanged)), prompt, silent⟩

/-- An operation asks the chip for something that it grants and that changes nothing: the operation
completes, and only its own node is not what it was. -/
theorem callChip_of_hushed {n : Node} (ready : w.ready = []) (found : w.nodes[index]? = some n)
    (hushed : Hushed index w) (silent : n.Silent) (prompt : n.bus.Prompt) (fits : command.Fits)
    (asks : command ≠ .healthCheck)
    (grants : Chip.execute n.bus.link.installed command = (0, n.bus.link.installed)) (call : LocalCall) :
    ∃ m v, Beside index w m v ∧ m.Silent ∧ m.bus.Prompt ∧ m.interface = n.interface ∧
      m.bus.link.installed = n.bus.link.installed ∧
      w.callChip index call command =
        ((m.interface.complete call (.ok ())).1,
          v.putNode index { m with interface := (m.interface.complete call (.ok ())).2 }) := by
  let asking : Node := { n with answer := none }.enqueue .operation command
  have before : Beside index w n w :=
    ⟨rfl, ready, fun other => by split <;> simp_all⟩
  have asks : asking.Asks command :=
    { noWork := silent.noWork
      alarms := silent.alarms
      unanswered := rfl
      prompt := prompt.enqueue fits asks .operation
      idle := ⟨silent.idle.free, silent.idle.silent⟩
      queued := ⟨Channel.waitFor n.bus.channel.settings command none, by
        show n.bus.channel.queue ++ _ = _
        rw [silent.empty]
        rfl⟩
      feasible := congrArg (·.1) grants }
  have queued := before.modifyNode (f := ({ · with answer := none }.enqueue .operation command))
    (Node.canWork_of_waiting asks.noWork asks.holds.2 w.now)
  obtain ⟨m, beside, answer, interface, installed, patient, quiet⟩ :=
    queued.operate hushed asks (congrArg (·.2) grants) (asking.bus.channel.attempts + 1)
  refine ⟨m, _, beside, quiet, patient, interface, installed, ?_⟩
  generalize ended : World.operate index (asking.bus.channel.attempts + 1 + 2) _ = u at beside
  have turns : ((w.modifyNode index ({ · with answer := none }.enqueue .operation command)).node? index).elim 0
      (·.bus.channel.attempts + 3) = asking.bus.channel.attempts + 1 + 2 := by
    rw [node?, queued.found]
    rfl
  have answered : (u.node? index).bind (·.answer) = some (.ok ()) := by
    rw [node?, beside.found]
    exact answer
  have completed : u.onInterface index (·.complete call (.ok ())) =
      some ((m.interface.complete call (.ok ())).1,
        u.putNode index { m with interface := (m.interface.complete call (.ok ())).2 }) := by
    rw [onInterface, onNode, node?, beside.found]
    rfl
  unfold callChip
  dsimp only
  rw [turns, ended, answered]
  dsimp only
  rw [completed]
  rfl

end World

end TargetWakeTime.Simulation
