import TargetWakeTime.Negotiation.Flow
import TargetWakeTime.Negotiation.Handling
import TargetWakeTime.Proofs.Runs

/-!
Contract: runs of a negotiation state, one operation after the other.

Owns:
- the operations, one for each thing that the surroundings can do to the state, with any arguments;
- the steps of a run and the states it reaches, the first one included;
- the single events that one handling takes up, each with the state it is taken up in;
- what every operation preserves, and runs that look the same.

The link belongs to the surroundings: a run may replace it at any point by any other.
-/

namespace TargetWakeTime.Negotiation

inductive Operation where
  | receiveElement (source : MacAddress) (element : List UInt8)
  | receiveSetup (source : MacAddress) (token : UInt8) (element : List UInt8)
  | receiveTeardown (source : MacAddress) (flow : UInt8)
  /-- Queue an event that no frame brought. -/
  | queueEvent (event : Event)
  | handleEvents (source : Option MacAddress)
  | takeAnswer (peer : MacAddress)
  | takeResponseElement (peer : MacAddress)
  | removeStation (peer : MacAddress)
  | purgeEvents (source : Option MacAddress)
  | clear
  | takeTasks
  | relink (link : Association)
  | sendRequest (agreement : Agreement) (command : SetupCommand)
  | associationRequestElement
  | beginTeardown (flow : UInt8)
  | teardownSent (destination : MacAddress) (flow : UInt8)
  | authorized
  | takeCommands
  | forceInstalled (agreement : Agreement)
  | commitInstall (flow : UInt8)
  | commitUninstall (flow : UInt8)
deriving DecidableEq, Repr

namespace Operation

/-- The state that an operation leaves; what it answers its caller is dropped. -/
def apply (n : Negotiation) : Operation → Negotiation
  | receiveElement source element => (n.receiveElement source element).2
  | receiveSetup source token element => (n.receiveSetup source token element).2
  | receiveTeardown source flow => (n.receiveTeardown source flow).2
  | queueEvent event => n.queueEvent event
  | handleEvents source => n.handleEvents source
  | takeAnswer peer => (n.takeAnswer peer).2
  | takeResponseElement peer => (n.takeResponseElement peer).2
  | removeStation peer => (n.removeStation peer).2
  | purgeEvents source => (n.purgeEvents source).2
  | clear => n.clear
  | takeTasks => n.takeTasks.2
  | relink link => { n with link }
  | sendRequest agreement command => (n.sendRequest agreement command).2
  | associationRequestElement => n.associationRequestElement.2
  | beginTeardown flow => (n.beginTeardown flow).2
  | teardownSent destination flow => n.teardownSent destination flow
  | authorized => n.authorized
  | takeCommands => n.takeCommands.2
  | forceInstalled agreement => n.forceInstalled agreement
  | commitInstall flow => n.commitInstall flow
  | commitUninstall flow => n.commitUninstall flow

/-- Whether all events that an operation brings in come from frames. -/
def fromFrames : Operation → Bool
  | queueEvent _ => false
  | _ => true

/-- The station whose waiting answer an operation takes out. -/
def takesAnswerFor? : Operation → Option MacAddress
  | takeAnswer peer | takeResponseElement peer => some peer
  | _ => none

end Operation

def run (n : Negotiation) (operations : List Operation) : Negotiation :=
  operations.foldl Operation.apply n

/-- The steps of a run: each operation with the state it is done in. -/
abbrev steps : Negotiation → List Operation → List (Negotiation × Operation) :=
  Runs.steps Operation.apply

/-- The states of a run, the first one included. -/
abbrev reached : Negotiation → List Operation → List Negotiation :=
  Runs.reached Operation.apply

/-- The element of a request for a flow, with its duration in units of 256 microseconds and its
interval in microseconds. -/
def requestElement (flow duration : UInt8) (interval : UInt16) : List UInt8 :=
  let parameters : Parameters :=
    { Parameters.zero with
      requestType := { RequestType.zero with request := true, implicit := true }
      minimumDuration := duration
      mantissa := interval }
  (Agreement.ofParameters .zero (parameters.withFlow flow)).element

/-! ### The events that one handling takes up -/

/-- The queued events that a handling takes up, oldest first. -/
def due (source : Option MacAddress) (n : Negotiation) : List Event :=
  n.events.toList.filter (·.passes source none)

/-- The state in which a handling takes up its first event: the other events stay queued. -/
def opened (source : Option MacAddress) (n : Negotiation) : Negotiation :=
  { n with events := ⟨n.events.toList.filter fun event => !event.passes source none⟩ }

/-- Each event of a list with the state in which it is taken up, if they are handled in order. -/
def handlings : List Event → Negotiation → List (Event × Negotiation)
  | [], _ => []
  | event :: rest, n => (event, n) :: handlings rest (n.handleEvent event).1

/-- Each event that an operation handles, with the state in which it is taken up. -/
def Operation.handlings (n : Negotiation) : Operation → List (Event × Negotiation)
  | handleEvents source => Negotiation.handlings (n.due source) (n.opened source)
  | _ => []

/-- Requeueing and deferring aside, a handling is the handling of its events one by one. -/
theorem handleEvents_eq (source : Option MacAddress) (n : Negotiation) :
    ∃ events tasks,
      n.handleEvents source =
        { (handleAll (n.due source) (n.opened source)).1 with events, tasks } := by
  simp only [handleEvents, due, opened]
  split
  · exact ⟨_, _, rfl⟩
  · exact ⟨_, _, rfl⟩

/-- What every event of a list preserves, handling them all preserves. -/
theorem holds_handleAll (property : Negotiation → Prop) {events : List Event}
    (kept : ∀ event ∈ events, ∀ n, property n → property (n.handleEvent event).1)
    {n : Negotiation} (holds : property n) : property (handleAll events n).1 := by
  induction events generalizing n with
  | nil => exact holds
  | cons event rest inductionHypothesis =>
      have next : property (n.handleEvent event).1 := kept event List.mem_cons_self n holds
      exact inductionHypothesis (fun later member => kept later (List.mem_cons_of_mem _ member)) next

/-- What every event preserves holds in all states in which the events of a list are taken up. -/
theorem invariant_of_handleEvent (invariant : Negotiation → Prop)
    (kept : ∀ n event, invariant n → invariant (n.handleEvent event).1) {events : List Event}
    {n : Negotiation} (start : invariant n) : ∀ taken ∈ handlings events n, invariant taken.2 := by
  induction events generalizing n with
  | nil => intro taken member; cases member
  | cons event rest inductionHypothesis =>
      intro taken member
      rcases List.mem_cons.mp member with rfl | later
      · exact start
      · exact inductionHypothesis (kept n event start) taken later

/-! ### Induction over runs -/

theorem run_mem_reached (n : Negotiation) (operations : List Operation) :
    run n operations ∈ reached n operations :=
  Runs.foldl_mem_reached n operations

/-- What every operation preserves holds in all states of a run. -/
theorem invariant_of_apply (invariant : Negotiation → Prop)
    (kept : ∀ n (operation : Operation), invariant n → invariant (operation.apply n))
    {n : Negotiation} {operations : List Operation} (start : invariant n) :
    ∀ state ∈ reached n operations, invariant state :=
  Runs.invariant_of_steps invariant (fun n operation holds (_ : True) => kept n operation holds) start
    fun _ _ => trivial

/-! ### Two runs -/

theorem run_append (n : Negotiation) (first second : List Operation) :
    run n (first ++ second) = run (run n first) second :=
  List.foldl_append

section

variable {View : Type} (view : Negotiation → View) (hidden : Operation → Bool)
  (condition : Negotiation → Operation → Prop)
  (unseen : ∀ n operation, condition n operation → hidden operation = true →
    view (operation.apply n) = view n)

include unseen

/-- Operations that do not show leave a view as it is, however many they are. -/
theorem view_run_of_hidden {n : Negotiation} {operations : List Operation}
    (hides : ∀ operation ∈ operations, hidden operation = true)
    (met : ∀ step ∈ steps n operations, condition step.1 step.2) :
    view (run n operations) = view n := by
  induction operations generalizing n with
  | nil => rfl
  | cons operation rest inductionHypothesis =>
      have first := unseen n operation (met _ List.mem_cons_self) (hides _ List.mem_cons_self)
      have restHides := fun other member => hides other (List.mem_cons_of_mem _ member)
      have restMet := fun step member => met step (List.mem_cons_of_mem _ member)
      exact (inductionHypothesis restHides restMet).trans first

/-- Two runs that differ in operations which do not show end in the same view, if all other
operations do the same to what looks the same. -/
theorem view_run_congr
    (alike : ∀ n m operation, condition n operation → condition m operation →
      hidden operation = false → view n = view m →
      view (operation.apply n) = view (operation.apply m))
    {n m : Negotiation} {first second : List Operation} (same : view n = view m)
    (sameSeen : first.filter (!hidden ·) = second.filter (!hidden ·))
    (firstMet : ∀ step ∈ steps n first, condition step.1 step.2)
    (secondMet : ∀ step ∈ steps m second, condition step.1 step.2) :
    view (run n first) = view (run m second) := by
  induction first generalizing n m second with
  | nil =>
      have hides : ∀ operation ∈ second, hidden operation = true := by
        simpa using List.filter_eq_nil_iff.mp sameSeen.symm
      exact same.trans (view_run_of_hidden view hidden condition unseen hides secondMet).symm
  | cons operation rest inductionHypothesis =>
      have now := firstMet (n, operation) List.mem_cons_self
      have restMet := fun step member => firstMet step (List.mem_cons_of_mem _ member)
      cases hides : hidden operation with
      | true =>
          rw [List.filter_cons_of_neg (by simp [hides])] at sameSeen
          exact inductionHypothesis ((unseen n operation now hides).trans same) sameSeen restMet
            secondMet
      | false =>
          rw [List.filter_cons_of_pos (by simp [hides])] at sameSeen
          -- What the second run does before it comes to the same operation does not show.
          obtain ⟨before, after, rfl, skipped, -, sameRest⟩ :=
            List.filter_eq_cons_iff.mp sameSeen.symm
          rw [steps, Runs.steps_append] at secondMet
          have beforeMet := fun step member => secondMet step (List.mem_append_left _ member)
          have onwardMet := fun step member => secondMet step (List.mem_append_right _ member)
          have afterMet := fun step member => onwardMet step (List.mem_cons_of_mem _ member)
          have caughtUp := view_run_of_hidden view hidden condition unseen (by simpa using skipped)
            beforeMet
          have next : view (operation.apply n) = view (operation.apply (run m before)) :=
            alike n (run m before) operation now (onwardMet _ List.mem_cons_self) hides
              (same.trans caughtUp.symm)
          rw [run_append]
          exact inductionHypothesis (m := operation.apply (run m before)) next sameRest.symm restMet
            afterMet

end

end TargetWakeTime.Negotiation
