import Mathlib.Data.Nat.Find
import TargetWakeTime.Proofs.Interface.Handover

/-!
Contract: the worker does what it is given, with all that follows from it, and comes to an end.

Owns:
- the measure by which a worker in the middle of a task comes closer to its end;
- what a worker waits for, and the assumption that it gets it: its turn, the end of a transmission,
  the chip's answer;
- that a task which is taken up is done with all tasks that it leads to, in the order in which they
  came up, and with no others;
- that what was handed over is taken up, unless the worker is asked to stop before.

## Why it comes to an end

A task may lead to others, and these stand in the same queue. But only two kinds of tasks lead on,
and none of what they lead to does so again: handling events defers answers, commands and another
try, and a teardown that was announced leaves the command to carry it out. So either the tasks that
lead on become fewer, or the tasks do, or the worker is nearer to the end of one. How many tasks
come up is not bounded beforehand: other operations queue events while the worker is at it.
-/

namespace TargetWakeTime

namespace Worker.Stage

/-- Whether the worker is in the middle of a task, or of the tasks that it leads to. -/
def isBusy : Stage → Bool
  | idle | stopped => false
  | running _ | applying .. | transmitting .. | commanding .. => true

theorem isBusy_iff {s : Stage} : s.isBusy = true ↔ s ≠ .idle ∧ s ≠ .stopped := by
  cases s <;> simp [isBusy]

/-- The tasks that are still to be begun, and the one whose frame is being sent. -/
def unfinished : Stage → List Task
  | idle | stopped => []
  | running queue | applying _ queue | commanding _ _ queue => queue
  | transmitting task queue => task :: queue

/-- More than the steps that a stage takes while the unfinished tasks stay the same. -/
def chores : Stage → Nat
  | idle | stopped | transmitting .. => 0
  | running _ => 1
  | applying pending _ => 2 * pending.length + 2
  | commanding _ pending _ => 2 * pending.length + 3

def rank (s : Stage) : Nat × Nat × Nat :=
  (s.unfinished.countP Task.leadsOn, s.unfinished.length, s.chores)

/-- A stage is nearer to the end than another: fewer tasks lead on, or fewer are unfinished, or
there are fewer chores. -/
def Nearer (s t : Stage) : Prop :=
  Prod.Lex (· < ·) (Prod.Lex (· < ·) (· < ·)) s.rank t.rank

theorem wellFounded_nearer : WellFounded Nearer :=
  InvImage.wf rank (Prod.lex Nat.lt_wfRel (Prod.lex Nat.lt_wfRel Nat.lt_wfRel)).wf

variable {s t : Stage} {task : Task} {queue : List Task}

/-- A task that leads on makes room for any number of tasks that do not. -/
theorem nearer_of_leaves {leaves : List Task} (ahead : t.unfinished = task :: queue)
    (behind : s.unfinished = queue ++ leaves) (leads : task.leadsOn = true)
    (leaf : ∀ other ∈ leaves, other.leadsOn = false) : s.Nearer t := by
  refine .left _ _ ?_
  have none : leaves.countP Task.leadsOn = 0 := by
    rw [List.countP_eq_zero]
    exact fun other member => Bool.eq_false_iff.mp (leaf other member)
  rw [ahead, behind, List.countP_append, none, List.countP_cons_of_pos leads]
  exact Nat.lt_succ_self _

/-- A task that is over, and leads to nothing. -/
theorem nearer_of_tail (ahead : t.unfinished = task :: queue) (behind : s.unfinished = queue) :
    s.Nearer t := by
  have fewer : s.unfinished.length < t.unfinished.length := by
    rw [ahead, behind]
    exact Nat.lt_succ_self _
  have leads : s.unfinished.countP Task.leadsOn ≤ t.unfinished.countP Task.leadsOn := by
    rw [ahead, behind]
    exact (List.sublist_cons_self task queue).countP_le
  rcases Nat.lt_or_eq_of_le leads with less | same
  · exact .left _ _ less
  · rw [Nearer, rank, rank, same]
    exact .right _ (.left _ _ fewer)

theorem nearer_of_chores (same : s.unfinished = t.unfinished) (fewer : s.chores < t.chores) :
    s.Nearer t := by
  rw [Nearer, rank, rank, same]
  exact .right _ (.right _ fewer)

/-- What a worker in a stage has to wait for. -/
def Awaits : Stage → Interface.Step → Prop
  | idle, next | running _, next | applying .., next => next = .act .work
  | transmitting .., next => next = .act .frameSent
  | commanding .., next => ∃ succeeded, next = .act (.commandDone succeeded)
  | stopped, _ => False

end Worker.Stage

namespace Interface

variable {i : Interface} {task : Task} {queue : List Task}

/-! ### One step -/

/-- A stage that has come to its end, or nearer to it. -/
def Advanced (before after : Worker.Stage) : Prop :=
  after = .idle ∨ (after.isBusy = true ∧ after.Nearer before)

/-- Once the frame of a task has left, or cannot, the worker is done with the task. -/
theorem advanced_afterFrame {before : Worker.Stage} (reachable : Reachable i)
    (ahead : before.unfinished = task :: queue) :
    Advanced before (i.afterFrame task queue).worker.stage := by
  have ended : Worker.Stage.Nearer (.running queue) before :=
    Worker.Stage.nearer_of_tail ahead rfl
  cases task with
  | sendTeardown destination flow =>
      have tasks : (i.negotiation.teardownSent destination flow).tasks = [.applyCommands] :=
        congrArg (· ++ [Task.applyCommands]) reachable.tasks
      have leaf : ∀ other ∈ [Task.applyCommands], other.leadsOn = false := by simp [Task.leadsOn]
      exact .inr ⟨rfl,
        Worker.Stage.nearer_of_leaves ahead (congrArg (queue ++ ·) tasks) rfl leaf⟩
  | sendSetup | handleEvents | applyCommands | retryEvents => exact .inr ⟨rfl, ended⟩

/-- A task takes the worker nearer to its end, whatever it leads to. -/
theorem advanced_perform (reachable : Reachable i) (task : Task) (queue : List Task) :
    Advanced (.running (task :: queue)) (i.perform task queue).1.worker.stage := by
  have sending (frame : ActionFrame) :
      Advanced (.running (task :: queue)) (i.sendFrame task frame queue).1.worker.stage := by
    rw [sendFrame]
    split
    · exact .inr ⟨rfl, Worker.Stage.nearer_of_chores rfl Nat.zero_lt_one⟩
    · exact advanced_afterFrame reachable rfl
  cases task with
  | sendSetup | sendTeardown => exact sending _
  | handleEvents source =>
      obtain ⟨leaves, grown, leaf⟩ :=
        Negotiation.leaf_handleEvents reachable.orderly.distinct source
      rw [reachable.tasks, List.nil_append] at grown
      exact .inr ⟨rfl, Worker.Stage.nearer_of_leaves rfl (congrArg (queue ++ ·) grown) rfl leaf⟩
  | applyCommands | retryEvents => exact .inr ⟨rfl, Worker.Stage.nearer_of_tail rfl rfl⟩

theorem advanced_work (reachable : Reachable i) (busy : i.worker.stage.isBusy = true)
    (awaits : i.worker.stage.Awaits (.act .work)) :
    Advanced i.worker.stage (Action.work.apply i).worker.stage := by
  rw [Action.apply, work]
  cases stage : i.worker.stage with
  | running queue =>
      cases queue with
      | nil => exact .inl rfl
      | cons task queue => exact advanced_perform reachable task queue
  | applying pending queue =>
      cases pending with
      | nil => exact .inr ⟨rfl, Worker.Stage.nearer_of_chores rfl (Nat.lt_succ_self 1)⟩
      | cons event pending =>
          refine .inr ⟨rfl, Worker.Stage.nearer_of_chores rfl ?_⟩
          show 2 * pending.length + 3 < 2 * (pending.length + 1) + 2
          omega
  | transmitting =>
      rw [stage] at awaits
      cases awaits
  | commanding =>
      rw [stage] at awaits
      obtain ⟨succeeded, same⟩ := awaits
      cases same
  | idle | stopped =>
      rw [stage] at busy
      cases busy

/-- What a busy worker waits for takes it nearer to its end. -/
theorem advanced_of_awaits {next : Step} (reachable : Reachable i)
    (busy : i.worker.stage.isBusy = true) (awaits : i.worker.stage.Awaits next) :
    Advanced i.worker.stage (next.apply i).worker.stage := by
  cases stage : i.worker.stage with
  | running | applying =>
      have same : next = .act .work := by rwa [stage] at awaits
      subst same
      exact stage ▸ advanced_work reachable busy awaits
  | transmitting task queue =>
      have same : next = .act .frameSent := by rwa [stage] at awaits
      subst same
      rw [Step.apply, Action.apply, frameSent, stage]
      exact advanced_afterFrame reachable rfl
  | commanding event pending queue =>
      obtain ⟨succeeded, rfl⟩ : ∃ succeeded, next = .act (.commandDone succeeded) := by
        rwa [stage] at awaits
      rw [Step.apply, Action.apply, commandDone, stage]
      cases succeeded <;>
        exact .inr ⟨rfl, Worker.Stage.nearer_of_chores rfl (Nat.lt_succ_self _)⟩
  | idle | stopped =>
      rw [stage] at busy
      cases busy

/-- All that a worker does not wait for leaves its stage as it is. -/
theorem stage_of_not_awaits {next : Step} (reachable : Reachable i)
    (other : ¬ i.worker.stage.Awaits next) :
    (next.apply i).worker.stage = i.worker.stage := by
  cases own : next.isOwn with
  | false => rw [worker_of_others reachable own, Worker.stage_push]
  | true =>
      cases next with
      | clear => cases own
      | act action =>
          cases action
          case work =>
            cases stage : i.worker.stage with
            | idle | running | applying => exact absurd (by rw [stage]; rfl) other
            | transmitting | commanding | stopped => simp [Step.apply, Action.apply, work, stage]
          case frameSent =>
            cases stage : i.worker.stage with
            | transmitting => exact absurd (by rw [stage]; rfl) other
            | idle | running | applying | commanding | stopped =>
                simp [Step.apply, Action.apply, frameSent, stage]
          case commandDone succeeded =>
            cases stage : i.worker.stage with
            | commanding => exact absurd (by rw [stage]; exact ⟨succeeded, rfl⟩) other
            | idle | running | applying | transmitting | stopped =>
                simp [Step.apply, Action.apply, commandDone, stage]
          all_goals cases own

/-- Only a worker that is idle and has its turn takes anything out of its inbox. -/
theorem inbox_of_step {next : Step} (reachable : Reachable i)
    (goesOn : i.worker.stage ≠ .stopped)
    (apart : i.worker.stage ≠ .idle ∨ next ≠ .act .work) :
    ∃ more, (next.apply i).worker.inbox = i.worker.inbox ++ more := by
  cases own : next.isOwn with
  | false =>
      rw [worker_of_others reachable own, Worker.inbox_push goesOn]
      exact ⟨_, rfl⟩
  | true =>
      rw [(onward_of_own reachable own apart).inbox]
      exact ⟨[], (List.append_nil _).symm⟩

/-- In the course of a task, what comes up goes behind what is still to be begun. -/
theorem queue_of_step {next : Step} (reachable : Reachable i)
    (busy : i.worker.stage.isBusy = true) :
    next.begun i ++ (next.apply i).worker.stage.queue =
      i.worker.stage.queue ++ next.led i := by
  have notIdle : i.worker.stage ≠ .idle := (Worker.Stage.isBusy_iff.mp busy).1
  cases own : next.isOwn with
  | false =>
      have nothing : next.led i = [] := by rw [Step.led, own]; rfl
      rw [begun_of_others own, nothing, worker_of_others reachable own, Worker.stage_push,
        List.append_nil, List.nil_append]
  | true =>
      have all : next.led i = next.deferred i := by rw [Step.led, own]; rfl
      rw [all]
      exact (onward_of_own reachable own (.inl notIdle)).queue

/-! ### Courses -/

namespace Course

/-- What the worker waits for comes: it gets its turn, every transmission ends, and the chip answers
every command. -/
structure Returns (c : Course) : Prop where
  turn : ∀ k, (c.state k).work.isSome = true → ∃ l, k ≤ l ∧ c.steps l = .act .work
  frame : ∀ k task queue, (c.state k).worker.stage = .transmitting task queue →
    ∃ l, k ≤ l ∧ c.steps l = .act .frameSent
  command : ∀ k event pending queue,
    (c.state k).worker.stage = .commanding event pending queue →
      ∃ l succeeded, k ≤ l ∧ c.steps l = .act (.commandDone succeeded)

variable {c : Course} {k count : Nat}

/-- Whether the worker is busy all through so many states, from the first one on. -/
def Busy (c : Course) (first count : Nat) : Prop :=
  ∀ m < count, (c.state (first + m)).worker.stage.isBusy = true

/-- While the worker is busy, it begins tasks in the order in which they came up. -/
theorem begun_in_order (busy : c.Busy k count) :
    c.gather Step.begun k count ++ (c.state (k + count)).worker.stage.queue =
      (c.state k).worker.stage.queue ++ c.gather Step.led k count := by
  induction count with
  | zero => exact (List.append_nil _).symm
  | succ count inductionHypothesis =>
      have before := inductionHypothesis fun m small => busy m (Nat.lt_succ_of_lt small)
      have now : (c.steps (k + count)).begun (c.state (k + count)) ++
          (c.state (k + (count + 1))).worker.stage.queue =
            (c.state (k + count)).worker.stage.queue ++
              (c.steps (k + count)).led (c.state (k + count)) :=
        queue_of_step (c.reachable_state _) (busy count (Nat.lt_succ_self _))
      rw [gather_succ, gather_succ, List.append_assoc, now, ← List.append_assoc, before,
        List.append_assoc]

theorem Busy.append {more : Nat} (busy : c.Busy k count) (later : c.Busy (k + count) more) :
    c.Busy k (count + more) := by
  intro m small
  rcases Nat.lt_or_ge m count with inside | behind
  · exact busy m inside
  · have there := later (m - count) (by omega)
    rwa [show k + count + (m - count) = k + m by omega] at there

/-- While the worker is busy, nothing is taken out of its inbox. -/
theorem inbox_of_busy (busy : c.Busy k count) :
    ∃ more, (c.state (k + count)).worker.inbox = (c.state k).worker.inbox ++ more := by
  induction count with
  | zero => exact ⟨[], (List.append_nil _).symm⟩
  | succ count inductionHypothesis =>
      obtain ⟨before, grown⟩ :=
        inductionHypothesis fun m small => busy m (Nat.lt_succ_of_lt small)
      obtain ⟨notIdle, goesOn⟩ := Worker.Stage.isBusy_iff.mp (busy count (Nat.lt_succ_self _))
      obtain ⟨more, further⟩ : ∃ more, (c.state (k + (count + 1))).worker.inbox =
          (c.state (k + count)).worker.inbox ++ more :=
        inbox_of_step (c.reachable_state _) goesOn (.inl notIdle)
      exact ⟨before ++ more, by rw [further, grown, List.append_assoc]⟩

/-- A worker that can go on gets what it waits for. -/
theorem Returns.exists_awaited (returns : c.Returns)
    (able : (c.state k).worker.stage.isBusy = true ∨ (c.state k).work.isSome = true) :
    ∃ m, (c.state k).worker.stage.Awaits (c.steps (k + m)) := by
  have turn (some : (c.state k).work.isSome = true) : ∃ m, c.steps (k + m) = .act .work := by
    obtain ⟨l, later, same⟩ := returns.turn k some
    exact ⟨l - k, by rw [Nat.add_sub_cancel' later, same]⟩
  cases stage : (c.state k).worker.stage with
  | idle =>
      refine turn (able.resolve_left fun busy => ?_)
      rw [stage] at busy
      cases busy
  | running queue =>
      refine turn ?_
      cases queue <;> simp [work, stage]
  | applying pending queue =>
      refine turn ?_
      cases pending <;> simp [work, stage]
  | transmitting task queue =>
      obtain ⟨l, later, same⟩ := returns.frame k task queue stage
      exact ⟨l - k, by rw [Nat.add_sub_cancel' later]; exact same⟩
  | commanding event pending queue =>
      obtain ⟨l, succeeded, later, same⟩ := returns.command k event pending queue stage
      exact ⟨l - k, succeeded, by rw [Nat.add_sub_cancel' later]; exact same⟩
  | stopped =>
      rw [stage] at able
      rcases able with busy | some
      · cases busy
      · simp [work, stage] at some

/-- What a worker does not wait for leaves it as it is, but that its inbox may grow. -/
theorem unchanged_until {m : Nat} (goesOn : (c.state k).worker.stage ≠ .stopped)
    (others : ∀ l < m, ¬ (c.state k).worker.stage.Awaits (c.steps (k + l))) :
    (c.state (k + m)).worker.stage = (c.state k).worker.stage ∧
      ∃ more, (c.state (k + m)).worker.inbox = (c.state k).worker.inbox ++ more := by
  induction m with
  | zero => exact ⟨rfl, [], (List.append_nil _).symm⟩
  | succ m inductionHypothesis =>
      obtain ⟨same, before, grown⟩ :=
        inductionHypothesis fun l small => others l (Nat.lt_succ_of_lt small)
      have reachable := c.reachable_state (k + m)
      have other := others m (Nat.lt_succ_self m)
      rw [← same] at other goesOn
      have apart : (c.state (k + m)).worker.stage ≠ .idle ∨ c.steps (k + m) ≠ .act .work := by
        by_cases idle : (c.state (k + m)).worker.stage = .idle
        · rw [idle] at other
          exact .inr other
        · exact .inl idle
      obtain ⟨more, further⟩ := inbox_of_step reachable goesOn apart
      refine ⟨(stage_of_not_awaits reachable other).trans same, before ++ more, ?_⟩
      rw [← List.append_assoc, ← grown]
      exact further

/-- A worker that can go on stays as it is until it gets what it waits for. -/
theorem exists_first (returns : c.Returns)
    (able : (c.state k).worker.stage.isBusy = true ∨ (c.state k).work.isSome = true) :
    ∃ m, (c.state k).worker.stage.Awaits (c.steps (k + m)) ∧
      ∀ l ≤ m, (c.state (k + l)).worker.stage = (c.state k).worker.stage ∧
        ∃ more, (c.state (k + l)).worker.inbox = (c.state k).worker.inbox ++ more := by
  classical
  have goesOn : (c.state k).worker.stage ≠ .stopped := by
    intro stopped
    rcases able with busy | some
    · exact (Worker.Stage.isBusy_iff.mp busy).2 stopped
    · simp [work, stopped] at some
  have awaited := returns.exists_awaited able
  refine ⟨Nat.find awaited, Nat.find_spec awaited, fun l small => unchanged_until goesOn ?_⟩
  exact fun earlier before => Nat.find_min awaited (Nat.lt_of_lt_of_le before small)

/-- A busy worker comes to an end with what it is at. -/
theorem exists_idle (returns : c.Returns) (busy : (c.state k).worker.stage.isBusy = true) :
    ∃ count, (c.state (k + count)).worker.stage = .idle ∧ c.Busy k count := by
  generalize same : (c.state k).worker.stage = stage at busy
  induction stage using Worker.Stage.wellFounded_nearer.induction generalizing k with
  | _ stage inductionHypothesis =>
      subst same
      obtain ⟨m, awaits, still⟩ := exists_first returns (.inl busy)
      have waited : c.Busy k (m + 1) := fun l small => by
        rw [(still l (Nat.le_of_lt_succ small)).1]
        exact busy
      have now := (still m (Nat.le_refl m)).1
      have advanced := advanced_of_awaits (c.reachable_state (k + m))
        (waited m (Nat.lt_succ_self m)) (now ▸ awaits)
      rw [now] at advanced
      rcases advanced with idle | ⟨stillBusy, nearer⟩
      · exact ⟨m + 1, idle, waited⟩
      · obtain ⟨count, idle, later⟩ :=
          inductionHypothesis _ nearer (k := k + (m + 1)) rfl stillBusy
        exact ⟨m + 1 + count, by rw [← Nat.add_assoc]; exact idle, waited.append later⟩

/-- What waits in the inbox gets its turn, with all that was behind it still there. -/
theorem exists_turn (returns : c.Returns) (goesOn : (c.state k).worker.stage ≠ .stopped)
    (waits : (c.state k).worker.inbox ≠ []) :
    ∃ l more, k ≤ l ∧ (c.state l).worker = ⟨(c.state k).worker.inbox ++ more, .idle⟩ ∧
      c.steps l = .act .work := by
  have ofIdle {k : Nat} (idle : (c.state k).worker.stage = .idle)
      (waits : (c.state k).worker.inbox ≠ []) :
      ∃ l more, k ≤ l ∧ (c.state l).worker = ⟨(c.state k).worker.inbox ++ more, .idle⟩ ∧
        c.steps l = .act .work := by
    have able : (c.state k).work.isSome = true := by
      cases inbox : (c.state k).worker.inbox with
      | nil => exact absurd inbox waits
      | cons given => cases given <;> simp [work, idle, inbox]
    obtain ⟨m, awaits, still⟩ := exists_first returns (.inr able)
    obtain ⟨same, more, grown⟩ := still m (Nat.le_refl m)
    rw [idle] at awaits same
    refine ⟨k + m, more, Nat.le_add_right .., ?_, awaits⟩
    rw [← grown, ← same]
  by_cases idle : (c.state k).worker.stage = .idle
  · exact ofIdle idle waits
  · have busy : (c.state k).worker.stage.isBusy = true :=
      Worker.Stage.isBusy_iff.mpr ⟨idle, goesOn⟩
    obtain ⟨count, ended, during⟩ := exists_idle returns busy
    obtain ⟨before, grown⟩ := inbox_of_busy during
    obtain ⟨l, more, later, worker, turn⟩ :=
      ofIdle ended (by rw [grown]; exact List.append_ne_nil_of_left_ne_nil waits _)
    refine ⟨l, before ++ more, Nat.le_trans (Nat.le_add_right ..) later, ?_, turn⟩
    rw [worker, grown, List.append_assoc]

/-- What was handed over is taken up, if the worker is not asked to stop before. -/
theorem exists_taken {before after : List Work} {task : Task} (returns : c.Returns)
    (goesOn : (c.state k).worker.stage ≠ .stopped)
    (handed : (c.state k).worker.inbox = before ++ .task task :: after) (noStop : .stop ∉ before) :
    ∃ l more, k ≤ l ∧ (c.state l).worker = ⟨.task task :: (after ++ more), .idle⟩ ∧
      c.steps l = .act .work := by
  induction before generalizing k after with
  | nil =>
      obtain ⟨l, more, later, worker, turn⟩ :=
        exists_turn returns goesOn (by rw [handed]; simp)
      rw [handed] at worker
      exact ⟨l, more, later, worker, turn⟩
  | cons given before inductionHypothesis =>
      obtain ⟨l, more, later, worker, turn⟩ :=
        exists_turn returns goesOn (by rw [handed]; simp)
      rw [handed] at worker
      have next : c.state (l + 1) = Action.work.apply (c.state l) := by
        rw [state, turn]
        rfl
      have rest : (c.state (l + 1)).worker.inbox = before ++ .task task :: (after ++ more) ∧
          (c.state (l + 1)).worker.stage ≠ .stopped := by
        rw [next, Action.apply, work, worker]
        cases given with
        | task | flush => simp
        | stop => exact absurd List.mem_cons_self noStop
      obtain ⟨m, further, onward, taken, turnThen⟩ := inductionHypothesis rest.2 rest.1
        fun member => noStop (List.mem_cons_of_mem _ member)
      refine ⟨m, more ++ further, by omega, ?_, turnThen⟩
      rw [taken, List.append_assoc]

/-- A task that is taken up is done with all that it leads to, in the order in which it came up. -/
theorem exists_done {inbox : List Work} {task : Task} (returns : c.Returns)
    (first : (c.state k).worker = ⟨.task task :: inbox, .idle⟩) (turn : c.steps k = .act .work) :
    ∃ count, (c.state (k + 1 + count)).worker.stage = .idle ∧ c.Busy (k + 1) count ∧
      c.gather Step.begun (k + 1) count = task :: c.gather Step.led (k + 1) count := by
  have taken : (c.state (k + 1)).worker = ⟨inbox, .running [task]⟩ := by
    rw [state, turn, Step.apply, Action.apply, work, first]
    rfl
  obtain ⟨count, idle, busy⟩ := exists_idle returns (k := k + 1) (by rw [taken]; rfl)
  refine ⟨count, idle, busy, ?_⟩
  have order := begun_in_order busy
  rw [idle, taken] at order
  exact (List.append_nil _).symm.trans order

end Course

/-- Between the steps of every course no task is left in the negotiation state; and until the worker
is stopped, each task that the state deferred or an alarm brought was handed to the worker exactly
once, which has begun it or still has it. If the worker's turns, its transmissions and its commands
come, each task that was handed over is taken up, unless the worker is asked to stop before. And
from when a task is taken up, the worker begins this task and all tasks that come up in its course,
in their order and no others, and after finitely many steps it is idle again. -/
theorem deferred_handedOver_and_done (c : Course) :
    (∀ k, (c.state k).negotiation.tasks = []) ∧
    (∀ k, (c.state k).worker.stage ≠ .stopped →
      (c.gather Step.begun 0 k ++ (c.state k).worker.outstanding).Perm
        (c.gather Step.brought 0 k ++ c.gather Step.deferred 0 k)) ∧
    (c.Returns → ∀ k task before after, (c.state k).worker.stage ≠ .stopped →
      (c.state k).worker.inbox = before ++ .task task :: after → .stop ∉ before →
        ∃ l more, k ≤ l ∧ (c.state l).worker = ⟨.task task :: (after ++ more), .idle⟩ ∧
          c.steps l = .act .work) ∧
    (c.Returns → ∀ k task inbox, (c.state k).worker = ⟨.task task :: inbox, .idle⟩ →
      c.steps k = .act .work →
        ∃ count, (c.state (k + 1 + count)).worker.stage = .idle ∧ c.Busy (k + 1) count ∧
          c.gather Step.begun (k + 1) count = task :: c.gather Step.led (k + 1) count) := by
  refine ⟨fun k => (c.reachable_state k).tasks, c.ledger, ?_, ?_⟩
  · intro returns k task before after goesOn handed noStop
    exact Course.exists_taken returns goesOn handed noStop
  · intro returns k task inbox first turn
    exact Course.exists_done returns first turn

/-- An access point knows a station, which then asks for an agreement in an action frame. From then
on the worker gets its turn, a transmission ends and the chip answers, one after the other. -/
def askedOnce : Course where
  vif := 1
  address := ⟨2, 0, 0, 0, 0, 9⟩
  settings := .accessPoint
  steps
    | 0 => .act (.relink (Association.addPeer ⟨2, 0, 0, 0, 0, 1⟩ {}))
    | 1 => .act (.receiveSetup ⟨2, 0, 0, 0, 0, 1⟩ 7 (Negotiation.requestElement 0 4 1024))
    | k + 2 =>
        if k % 3 = 0 then .act .work
        else if k % 3 = 1 then .act .frameSent
        else .act (.commandDone true)

theorem returns_askedOnce : askedOnce.Returns where
  turn k _ := by
    refine ⟨3 * k + 2, by omega, ?_⟩
    show (if 3 * k % 3 = 0 then _ else _) = _
    rw [if_pos (by omega)]
  frame k _ _ _ := by
    refine ⟨3 * k + 1 + 2, by omega, ?_⟩
    show (if (3 * k + 1) % 3 = 0 then _ else if (3 * k + 1) % 3 = 1 then _ else _) = _
    rw [if_neg (by omega), if_pos (by omega)]
  command k _ _ _ _ := by
    refine ⟨3 * k + 2 + 2, true, by omega, ?_⟩
    show (if (3 * k + 2) % 3 = 0 then _ else if (3 * k + 2) % 3 = 1 then _ else _) = _
    rw [if_neg (by omega), if_neg (by omega)]

/-- The worker handles the request, sends the answer that this leads to, and is idle again with all
that was handed over done. -/
theorem deferred_handedOver_and_done_askedOnce :
    let c := askedOnce
    c.Returns ∧ (c.state 12).worker = {} ∧ (c.gather Step.led 3 9).length = 1 ∧
      (c.gather Step.begun 0 12).Perm
        (c.gather Step.brought 0 12 ++ c.gather Step.deferred 0 12) ∧
      ∃ l count, 2 ≤ l ∧ (c.state (l + 1 + count)).worker.stage = .idle ∧ c.Busy (l + 1) count ∧
        c.gather Step.begun (l + 1) count =
          .handleEvents none :: c.gather Step.led (l + 1) count := by
  intro c
  obtain ⟨-, ledger, taken, done⟩ := deferred_handedOver_and_done c
  have handed : (c.state 2).worker = ⟨[.task (.handleEvents none)], .idle⟩ := by decide +kernel
  have rest : (c.state 12).worker = {} := by decide +kernel
  have all := ledger 12 (by rw [rest]; decide)
  have nothing : (c.state 12).worker.outstanding = [] := by rw [rest]; rfl
  rw [nothing, List.append_nil] at all
  obtain ⟨l, more, later, worker, turn⟩ := taken returns_askedOnce 2 (.handleEvents none) [] []
    (by rw [handed]; decide) (by rw [handed]; rfl) List.not_mem_nil
  obtain ⟨count, idle, busy, begun⟩ := done returns_askedOnce l _ _ worker turn
  exact ⟨returns_askedOnce, rest, by decide +kernel, all, l, count, later, idle, busy, begun⟩

end Interface

end TargetWakeTime
