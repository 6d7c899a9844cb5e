/-!
Contract: runs of anything that acts step by step.

Owns the steps of a run, the states that it reaches, and the inductions that invariants of all
systems share. A system is given by what an action makes of a state.
-/

namespace TargetWakeTime.Runs

variable {State Action : Type} (act : State → Action → State)

/-- The steps of a run: each action with the state it is done in. -/
def steps : State → List Action → List (State × Action)
  | _, [] => []
  | s, action :: rest => (s, action) :: steps (act s action) rest

/-- The states of a run, the first one included. -/
def reached : State → List Action → List State
  | s, [] => [s]
  | s, action :: rest => s :: reached (act s action) rest

variable {act} {s : State} {actions : List Action}

theorem mem_reached_self (s : State) (actions : List Action) : s ∈ reached act s actions := by
  cases actions <;> exact List.mem_cons_self

theorem foldl_mem_reached (s : State) (actions : List Action) :
    actions.foldl act s ∈ reached act s actions := by
  induction actions generalizing s with
  | nil => exact List.mem_cons_self
  | cons action rest inductionHypothesis => exact List.mem_cons_of_mem _ (inductionHypothesis _)

theorem mem_of_mem_steps {step : State × Action} (member : step ∈ steps act s actions) :
    step.1 ∈ reached act s actions ∧ step.2 ∈ actions := by
  induction actions generalizing s with
  | nil => cases member
  | cons action rest inductionHypothesis =>
      rcases List.mem_cons.mp member with rfl | later
      · exact ⟨List.mem_cons_self, List.mem_cons_self⟩
      · obtain ⟨inRest, restAction⟩ := inductionHypothesis later
        exact ⟨List.mem_cons_of_mem _ inRest, List.mem_cons_of_mem _ restAction⟩

theorem steps_append (s : State) (first second : List Action) :
    steps act s (first ++ second) = steps act s first ++ steps act (first.foldl act s) second := by
  induction first generalizing s with
  | nil => rfl
  | cons action rest inductionHypothesis =>
      exact congrArg ((s, action) :: ·) (inductionHypothesis (act s action))

/-- What every step under its condition preserves holds in all states of a run whose steps meet the
condition. -/
theorem invariant_of_steps (invariant : State → Prop) {condition : State → Action → Prop}
    (kept : ∀ s action, invariant s → condition s action → invariant (act s action))
    (start : invariant s) (met : ∀ step ∈ steps act s actions, condition step.1 step.2) :
    ∀ state ∈ reached act s actions, invariant state := by
  induction actions generalizing s with
  | nil =>
      intro state member
      rw [List.mem_singleton.mp member]
      exact start
  | cons action rest inductionHypothesis =>
      have restMet := fun step member => met step (List.mem_cons_of_mem _ member)
      intro state member
      rcases List.mem_cons.mp member with rfl | later
      · exact start
      · exact inductionHypothesis (kept s action start (met _ List.mem_cons_self)) restMet state later

/-- If an invariant gives a property, and a step that keeps to the condition keeps the invariant,
and one that does not loses the property, then the property holds all along a run exactly if all
its steps keep to the condition. -/
theorem reached_iff_steps (invariant : State → Prop) {property : State → Prop}
    {condition : State → Action → Prop} (gives : ∀ s, invariant s → property s)
    (kept : ∀ s action, invariant s → condition s action → invariant (act s action))
    (needed : ∀ s action, invariant s → property (act s action) → condition s action)
    (start : invariant s) :
    (∀ state ∈ reached act s actions, property state) ↔
      ∀ step ∈ steps act s actions, condition step.1 step.2 := by
  constructor
  · induction actions generalizing s with
    | nil => simp [steps]
    | cons action rest inductionHypothesis =>
        intro holds
        have restHolds : ∀ state ∈ reached act (act s action) rest, property state :=
          fun state member => holds state (List.mem_cons_of_mem _ member)
        have firstMet : condition s action :=
          needed s action start (restHolds _ (mem_reached_self _ rest))
        intro step member
        rcases List.mem_cons.mp member with rfl | later
        · exact firstMet
        · exact inductionHypothesis (kept s action start firstMet) restHolds step later
  · intro met state member
    exact gives state (invariant_of_steps invariant kept start met state member)

end TargetWakeTime.Runs
