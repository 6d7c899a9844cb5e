import TargetWakeTime.Proofs.Negotiation.Conservation
import TargetWakeTime.Proofs.Negotiation.OwnFlows

/-!
Contract: the work that operations on a negotiation state leave to be done outside of it.

Owns:
- the tasks that an operation defers, and those that several of them defer one after the other;
- that nothing but taking the tasks, or clearing the state, takes a deferred task away;
- the tasks that can lead to others, which handling events never defers.
-/

namespace TargetWakeTime

/-- Whether a task can lead to others: events may have to be answered, and what a teardown frame
announced has to be carried out on the chip. -/
def Task.leadsOn : Task → Bool
  | sendTeardown .. | handleEvents _ => true
  | sendSetup .. | applyCommands | retryEvents => false

namespace Negotiation

/-- The tasks that an operation leaves behind those that were there before. -/
def Operation.deferred (n : Negotiation) (operation : Operation) : List Task :=
  (operation.apply n).tasks.drop n.tasks.length

/-- The tasks that operations defer, one after the other. -/
def deferredBy (n : Negotiation) (operations : List Operation) : List Task :=
  (steps n operations).flatMap fun step => step.2.deferred step.1

/-- Whether deferred tasks go with an operation. -/
def Operation.empties : Operation → Bool
  | takeTasks | clear => true
  | _ => false

variable {n : Negotiation} {event : Event} {operation : Operation} {operations : List Operation}

/-! ### Handling events -/

/-- Handling events defers answers, commands and another try, and none of these leads to others. -/
theorem leaf_handleEvents (distinct : n.stations.Distinct) (source : Option MacAddress) :
    ∃ extra, (n.handleEvents source).tasks = n.tasks ++ extra ∧
      ∀ task ∈ extra, task.leadsOn = false := by
  obtain ⟨processed, drains⟩ := drains_handleAll source n
  obtain ⟨extra, grown, replies⟩ := drains.replies distinct
  rw [handleEvents_of_drains drains]
  generalize (handleAll (n.due source) (n.opened source)).2 = aside
  refine ⟨extra ++ if aside = [] then [] else [.retryEvents], ?_, ?_⟩
  · rw [← List.append_assoc, ← grown]
  · refine List.forall_mem_append.mpr ⟨fun task member => ?_, ?_⟩
    · have reply := replies task member
      cases task with
      | sendSetup | applyCommands | retryEvents => rfl
      | sendTeardown | handleEvents => cases reply
    · split <;> simp [Task.leadsOn]

/-! ### All operations -/

theorem tasks_receiveElement (source : MacAddress) (element : List UInt8) (n : Negotiation) :
    (n.receiveElement source element).2.tasks = n.tasks := by
  have received := elementReceived source element n
  generalize n.receiveElement source element = result at received ⊢
  cases received <;> rfl

theorem tasks_takeAnswer (distinct : n.stations.Distinct) (peer : MacAddress) :
    (n.takeAnswer peer).2.tasks = n.tasks := by
  have taken := answerTaken peer n
  generalize n.takeAnswer peer = result at taken ⊢
  have concluded (answer : Event) (conclusion : Conclusion) :
      ((n.withoutAnswer peer).conclude answer conclusion).tasks = n.tasks :=
    (quiet_conclude (n := n.withoutAnswer peer) distinct).tasks
  cases taken with
  | nothing | kept | refused => rfl
  | established | cleared => exact concluded ..

theorem tasks_removeStation (peer : MacAddress) (n : Negotiation) :
    (n.removeStation peer).2.tasks = n.tasks := by
  unfold removeStation
  dsimp only
  split <;> split <;> rfl

/-- Only the tasks' owner takes them away: every other operation leaves them in front. -/
theorem prefix_tasks_apply (distinct : n.stations.Distinct) (keeps : operation.empties = false) :
    n.tasks <+: (operation.apply n).tasks := by
  have deferred (task : Task) : n.tasks <+: n.tasks ++ [task] := List.prefix_append ..
  have kept {m : Negotiation} (same : m.tasks = n.tasks) : n.tasks <+: m.tasks :=
    same ▸ List.prefix_rfl
  cases operation with
  | receiveElement source element => exact kept (tasks_receiveElement source element n)
  | receiveSetup source token element =>
      have received := setupReceived source token element n
      rw [Operation.apply]
      generalize n.receiveSetup source token element = result at received ⊢
      cases received with
      | malformed => exact List.prefix_rfl
      | crowded | noted | plain => exact deferred _
  | receiveTeardown source flow =>
      have received := teardownReceived source flow n
      rw [Operation.apply]
      generalize n.receiveTeardown source flow = result at received ⊢
      cases received with
      | unknown => exact List.prefix_rfl
      | queued => exact deferred _
  | handleEvents source =>
      obtain ⟨extra, grown, -⟩ := leaf_handleEvents distinct source
      exact ⟨extra, grown.symm⟩
  | takeAnswer peer => exact kept (tasks_takeAnswer distinct peer)
  | takeResponseElement peer =>
      rw [Operation.apply, takeResponseElement_snd]
      exact kept (tasks_takeAnswer distinct peer)
  | removeStation peer => exact kept (tasks_removeStation peer n)
  | sendRequest agreement command =>
      rw [Operation.apply, sendRequest]
      split
      · exact List.prefix_rfl
      · split
        · exact List.prefix_rfl
        · dsimp only
          split
          · exact deferred _
          · exact List.prefix_rfl
  | associationRequestElement =>
      rw [Operation.apply, associationRequestElement]
      split
      · split <;> exact List.prefix_rfl
      · exact List.prefix_rfl
  | beginTeardown flow =>
      have begun := teardownBegun flow n
      rw [Operation.apply]
      generalize n.beginTeardown flow = result at begun ⊢
      cases begun with
      | refused | unannounced => exact List.prefix_rfl
      | announced => exact deferred _
  | authorized =>
      rw [Operation.apply, authorized]
      split
      · exact List.prefix_rfl
      · exact deferred _
  | teardownSent destination flow => exact deferred _
  | takeTasks | clear => cases keeps
  | queueEvent | purgeEvents | relink | takeCommands | forceInstalled | commitInstall
      | commitUninstall => exact List.prefix_rfl

theorem tasks_apply_eq (distinct : n.stations.Distinct) (keeps : operation.empties = false) :
    (operation.apply n).tasks = n.tasks ++ operation.deferred n := by
  obtain ⟨extra, grown⟩ := prefix_tasks_apply distinct keeps
  rw [Operation.deferred, ← grown, List.drop_left]

/-- What is there after some operations is what was there before and what they deferred. -/
theorem tasks_run_eq (orderly : n.Orderly)
    (keep : ∀ operation ∈ operations, operation.empties = false) :
    (run n operations).tasks = n.tasks ++ deferredBy n operations := by
  induction operations generalizing n with
  | nil => exact (List.append_nil _).symm
  | cons operation rest inductionHypothesis =>
      have first := tasks_apply_eq orderly.distinct (keep operation List.mem_cons_self)
      have later := inductionHypothesis (orderly_apply orderly operation)
        fun other member => keep other (List.mem_cons_of_mem _ member)
      have split : deferredBy n (operation :: rest) =
          operation.deferred n ++ deferredBy (operation.apply n) rest := rfl
      rw [split, ← List.append_assoc, ← first]
      exact later

/-- Operations that end with taking the tasks have deferred all that is taken then. -/
theorem deferredBy_takeTasks (orderly : n.Orderly) (nothing : n.tasks = [])
    (keep : ∀ operation ∈ operations, operation.empties = false) :
    deferredBy n (operations ++ [.takeTasks]) = (run n operations).tasks := by
  have last : deferredBy (run n operations) [.takeTasks] = [] := by
    simp [deferredBy, steps, Runs.steps, Operation.deferred, Operation.apply, takeTasks]
  rw [tasks_run_eq orderly keep, nothing, List.nil_append]
  rw [deferredBy, steps, Runs.steps_append, List.flatMap_append]
  exact (congrArg (deferredBy n operations ++ ·) last).trans (List.append_nil _)

end Negotiation

end TargetWakeTime
