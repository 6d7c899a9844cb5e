import TargetWakeTime.Proofs.Interface.Actions

/-!
Contract: what an interface's worker still has to do.

Owns:
- the duties of a worker, in the order in which it takes them up, whatever stage it is at;
- the effort that is left for steps that take up no duty;
- each step of a worker with at most one duty: it takes up the duty, or else leaves everything as it
  is and less effort to do so again.

Whether someone waits for the worker is no duty.
-/

namespace TargetWakeTime

/-- One thing that a worker has to do. -/
inductive Duty where
  | task (task : Task)
  | carryOut (event : Event)
  /-- The chip has to answer the command of an event. -/
  | hear (event : Event)
  /-- The radio has to send the frame of a task. -/
  | send (task : Task)
  | stop
deriving DecidableEq, Repr

namespace Worker

def Stage.duties : Stage → List Duty
  | idle => []
  | running queue => queue.map .task
  | applying pending queue => pending.map .carryOut ++ queue.map .task
  | transmitting task queue => .send task :: queue.map .task
  | commanding event pending queue =>
      .hear event :: (pending.map .carryOut ++ queue.map .task)
  | stopped => [.stop]

/-- More than the steps that a stage can take without taking up a duty. -/
def Stage.effort : Stage → Nat
  | idle | stopped => 0
  | running _ => 1
  | applying .. => 2
  | transmitting .. | commanding .. => 3

end Worker

def Work.duty? : Work → Option Duty
  | task given => some (.task given)
  | flush => none
  | stop => some .stop

namespace Worker

/-- All that is left to be done, by the work at hand and then by what is in the inbox. -/
def duties (w : Worker) : List Duty := w.stage.duties ++ w.inbox.filterMap Work.duty?

def effort (w : Worker) : Nat := w.stage.effort + 2 * w.inbox.length

variable {w : Worker}

theorem duties_push {given : List Work} (goesOn : w.stage ≠ .stopped) :
    (w.push given).duties = w.duties ++ given.filterMap Work.duty? := by
  unfold push
  split
  case h_1 stopped => exact absurd stopped goesOn
  case h_2 => rw [duties, duties, List.filterMap_append, List.append_assoc]

theorem filterMap_duty? (tasks : List Task) :
    (tasks.map Work.task).filterMap Work.duty? = tasks.map .task := by
  rw [List.filterMap_map]
  exact congrFun List.filterMap_eq_map' tasks

theorem effort_push (given : List Work) : (w.push given).effort ≤ w.effort + 2 * given.length := by
  unfold push
  split
  · exact Nat.le_add_right ..
  · simp only [effort, List.length_append]
    omega

/-- A worker that was stopped has that as its first duty. -/
theorem goesOn_of_duties (without : .stop ∉ w.duties) : w.stage ≠ .stopped := by
  intro stopped
  apply without
  rw [duties, stopped]
  exact List.mem_cons_self

theorem duties_eq_nil_iff : w.duties = [] ↔
    w.stage.duties = [] ∧ w.inbox.filterMap Work.duty? = [] :=
  List.append_eq_nil_iff

end Worker

namespace Interface

variable {i after : Interface} {request : Option Request} {task : Task} {event : Event}

/-- A step that takes up no duty. -/
structure Idled (i after : Interface) : Prop where
  same : after = { i with worker := after.worker }
  duties : after.worker.duties = i.worker.duties
  effort : after.worker.effort < i.worker.effort

/-- The steps that take up no duty: work is taken out of the inbox, or a stage is over. -/
theorem idled_taken {inbox : List Work} (stage : i.worker.stage = .idle)
    (first : i.worker.inbox = .task task :: inbox) :
    Idled i { i with worker := ⟨inbox, .running [task]⟩ } where
  same := rfl
  duties := by
    simp [Worker.duties, Worker.Stage.duties, Work.duty?, stage, first]
  effort := by
    simp only [Worker.effort, Worker.Stage.effort, stage, first, List.length_cons]
    omega

theorem idled_flushed {inbox : List Work} (stage : i.worker.stage = .idle)
    (first : i.worker.inbox = .flush :: inbox) :
    Idled i { i with worker := ⟨inbox, .idle⟩ } where
  same := rfl
  duties := by
    rw [Worker.duties, Worker.duties, stage, first]
    rfl
  effort := by
    simp only [Worker.effort, Worker.Stage.effort, stage, first, List.length_cons]
    omega

theorem idled_done (stage : i.worker.stage = .running []) : Idled i (i.atStage .idle) where
  same := rfl
  duties := by
    simp [atStage, Worker.duties, Worker.Stage.duties, stage]
  effort := by
    simp only [atStage, Worker.effort, Worker.Stage.effort, stage]
    omega

theorem idled_applied {queue : List Task} (stage : i.worker.stage = .applying [] queue) :
    Idled i (i.atStage (.running queue)) where
  same := rfl
  duties := by
    simp [atStage, Worker.duties, Worker.Stage.duties, stage]
  effort := by
    simp only [atStage, Worker.effort, Worker.Stage.effort, stage]
    omega

/-- A worker without duties only idles. -/
theorem work_of_rest (rest : i.worker.duties = []) (found : i.work = some (after, request)) :
    request = none ∧ Idled i after := by
  obtain ⟨noStage, noInbox⟩ := Worker.duties_eq_nil_iff.mp rest
  cases worked found with
  | taken stage first | stopped stage first => simp [first, Work.duty?] at noInbox
  | flushed stage first => exact ⟨rfl, idled_flushed stage first⟩
  | performed stage | begun stage =>
      rw [stage] at noStage
      cases noStage
  | done stage => exact ⟨rfl, idled_done stage⟩
  | applied stage => exact ⟨rfl, idled_applied stage⟩

/-- A worker whose only duty is a task does it, if it does not idle. -/
theorem work_of_task (only : i.worker.duties = [.task task])
    (found : i.work = some (after, request)) :
    request = none ∧ Idled i after ∨
      i.worker.stage = .running [task] ∧ i.worker.inbox.filterMap Work.duty? = [] ∧
        i.perform task [] = (after, request) := by
  rw [Worker.duties] at only
  cases worked found with
  | taken stage first => exact .inl ⟨rfl, idled_taken stage first⟩
  | flushed stage first => exact .inl ⟨rfl, idled_flushed stage first⟩
  | stopped stage first => simp [stage, first, Worker.Stage.duties, Work.duty?] at only
  | @performed same queue stage =>
      rw [stage] at only
      obtain ⟨first, rest⟩ : same = task ∧
          queue.map Duty.task ++ i.worker.inbox.filterMap Work.duty? = [] := by
        simpa [Worker.Stage.duties] using only
      obtain ⟨noQueue, noInbox⟩ := List.append_eq_nil_iff.mp rest
      obtain rfl := first
      obtain rfl := List.map_eq_nil_iff.mp noQueue
      exact .inr ⟨stage, noInbox, rfl⟩
  | done stage => exact .inl ⟨rfl, idled_done stage⟩
  | begun stage => simp [stage, Worker.Stage.duties] at only
  | applied stage => exact .inl ⟨rfl, idled_applied stage⟩

/-- A worker whose only duty is to carry out an event asks the chip, if it does not idle. -/
theorem work_of_carryOut (only : i.worker.duties = [.carryOut event])
    (found : i.work = some (after, request)) :
    request = none ∧ Idled i after ∨
      i.worker.stage = .applying [event] [] ∧ i.worker.inbox.filterMap Work.duty? = [] ∧
        after = i.atStage (.commanding event [] []) ∧
        request = some (.command (commandFor i.vif event)) := by
  rw [Worker.duties] at only
  cases worked found with
  | taken stage first => exact .inl ⟨rfl, idled_taken stage first⟩
  | flushed stage first => exact .inl ⟨rfl, idled_flushed stage first⟩
  | stopped stage first => simp [stage, first, Worker.Stage.duties, Work.duty?] at only
  | performed stage => simp [stage, Worker.Stage.duties] at only
  | done stage => exact .inl ⟨rfl, idled_done stage⟩
  | @begun current pending queue stage =>
      rw [stage] at only
      obtain ⟨rfl, rfl, rfl, noInbox⟩ : current = event ∧ pending = [] ∧ queue = [] ∧
          i.worker.inbox.filterMap Work.duty? = [] := by
        simpa [Worker.Stage.duties] using only
      exact .inr ⟨stage, noInbox, rfl, rfl⟩
  | applied stage => exact .inl ⟨rfl, idled_applied stage⟩

/-- A worker that has to hear from the chip waits. -/
theorem work_of_hear {rest : List Duty} (hears : i.worker.duties = .hear event :: rest) :
    i.work = none ∧ ∃ pending queue, i.worker.stage = .commanding event pending queue := by
  rw [Worker.duties] at hears
  have noInbox : ∀ inbox : List Work, inbox.filterMap Work.duty? ≠ .hear event :: rest := by
    intro inbox same
    have member : Duty.hear event ∈ inbox.filterMap Work.duty? := same ▸ List.mem_cons_self
    obtain ⟨given, -, found⟩ := List.mem_filterMap.mp member
    cases given <;> cases found
  cases stage : i.worker.stage with
  | commanding current pending queue =>
      rw [stage] at hears
      cases hears
      exact ⟨by simp [work, stage], pending, queue, rfl⟩
  | idle => exact absurd (stage ▸ hears) (noInbox _)
  | running queue =>
      rw [stage] at hears
      cases queue with
      | nil => exact absurd hears (noInbox _)
      | cons => cases hears
  | applying pending queue =>
      rw [stage] at hears
      cases pending with
      | nil =>
          cases queue with
          | nil => exact absurd hears (noInbox _)
          | cons => cases hears
      | cons => cases hears
  | transmitting | stopped =>
      rw [stage] at hears
      cases hears

/-- A worker that has no duties and makes no step has no effort left. -/
theorem effort_of_still (rest : i.worker.duties = []) (still : i.work = none) :
    i.worker.effort = 0 := by
  obtain ⟨noStage, noInbox⟩ := Worker.duties_eq_nil_iff.mp rest
  unfold work at still
  cases stage : i.worker.stage with
  | idle =>
      cases inbox : i.worker.inbox with
      | nil => simp [Worker.effort, Worker.Stage.effort, stage, inbox]
      | cons given => cases given <;> simp [stage, inbox] at still
  | running queue => cases queue <;> simp [stage] at still
  | applying pending => cases pending <;> simp [stage] at still
  | transmitting | commanding | stopped =>
      rw [stage] at noStage
      cases noStage

/-- A worker that has to do a task, or to carry out an event, goes on. -/
theorem isSome_work {duty : Duty} {rest : List Duty} (first : i.worker.duties = duty :: rest)
    (able : (∃ task, duty = .task task) ∨ ∃ event, duty = .carryOut event) :
    i.work.isSome = true := by
  rw [Worker.duties] at first
  unfold work
  cases stage : i.worker.stage with
  | idle =>
      cases inbox : i.worker.inbox with
      | nil => simp [stage, inbox, Worker.Stage.duties] at first
      | cons given => cases given <;> rfl
  | running queue => cases queue <;> rfl
  | applying pending => cases pending <;> rfl
  | transmitting | commanding | stopped =>
      rw [stage] at first
      cases first
      rcases able with ⟨_, same⟩ | ⟨_, same⟩ <;> cases same

end Interface

end TargetWakeTime
