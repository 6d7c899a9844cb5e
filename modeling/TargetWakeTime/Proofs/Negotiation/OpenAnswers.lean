import TargetWakeTime.Proofs.Negotiation.WaitingAnswers

/-!
Contract: the answers that wait match the negotiations that are open.

Owns:
- what it means that the waiting answers are open, and that all of them can be taken out;
- that this holds along a run exactly if no teardown leaves an answer behind.
-/

namespace TargetWakeTime.Negotiation

/-- An answer is open if its station is known and its flow is under consideration, or in agreement
and rejected once more. -/
def Open (n : Negotiation) (answer : Event) : Prop :=
  ∃ state, n.stateOf answer.source answer.flow = some state ∧
    (state.isConsidering = true ∨ state = .agreement ∧ answer.command? = some .reject)

/-- Every waiting answer is open, and no two are for the same flow. -/
structure AnswersOpen (n : Negotiation) : Prop where
  opened : ∀ answer ∈ n.answers.toList, n.Open answer
  distinct : n.answers.Distinct

def AnswersTakeable (n : Negotiation) : Prop :=
  ∀ peer, ∃ answer, (n.takeAnswer peer).1 = .ok answer

variable {n : Negotiation}

theorem open_of_owed {answer : Event} (owed : Owed n.stations answer) : n.Open answer := by
  cases owed with
  | acceptance found considering => exact ⟨_, stateOf_of_slot? found, Or.inl considering⟩
  | @rejection slot agreement found busy rejects =>
      refine ⟨slot.state, stateOf_of_slot? found, ?_⟩
      have reject : answer.command? = some .reject := by rw [Event.command?, rejects]
      cases state : slot.state with
      | noAgreement => exact absurd state busy
      | agreement => exact Or.inr ⟨rfl, reject⟩
      | considerRequest | considerSuggest | considerDemand | considerGrouping => exact Or.inl rfl

theorem answersOpen_of_steady (steady : n.Steady) : n.AnswersOpen where
  opened answer member := open_of_owed (steady.owes.owed answer member List.not_mem_nil)
  distinct := steady.owes.distinct

theorem answersTakeable_of_answersOpen (answersOpen : n.AnswersOpen) : n.AnswersTakeable := by
  intro peer
  have taken := answerTaken peer n
  generalize n.takeAnswer peer = result at taken ⊢
  cases taken with
  | nothing => exact ⟨_, rfl⟩
  | established => exact ⟨_, rfl⟩
  | cleared => exact ⟨_, rfl⟩
  | kept => exact ⟨_, rfl⟩
  | refused first useless =>
      obtain ⟨state, stands, answerable⟩ :=
        answersOpen.opened _ (EventQueue.mem_of_peek? first)
      obtain ⟨notConsidering, notRejected⟩ := useless state stands
      rw [notConsidering] at answerable
      exact absurd (answerable.resolve_left Bool.false_ne_true) notRejected

/-- A flow that was just torn down has no open answer. -/
theorem teardownsTakeAnswers_of_answersOpen {operation : Operation} (steady : n.Steady)
    (answersOpen : (operation.apply n).AnswersOpen) : n.TeardownsTakeAnswers operation := by
  cases operation
  case handleEvents source =>
    intro event isDue tears
    rw [Bool.eq_false_iff]
    intro waits
    obtain ⟨answer, member, sameKey⟩ := EventQueue.contains_iff.mp waits
    obtain ⟨state, stands, answerable⟩ := answersOpen.opened answer member
    have busy : state ≠ .noAgreement := by
      rintro rfl
      rcases answerable with considering | ⟨inAgreement, -⟩
      · cases considering
      · cases inAgreement
    obtain ⟨slot, found, sameState⟩ := exists_slot_of_stateOf stands busy
    have isTorn : answer.key ∈ n.tornBy (n.due source) :=
      List.mem_map.mpr ⟨event, List.mem_filter.mpr ⟨isDue, tears⟩, sameKey.symm⟩
    have handled : (n.handleEvents source).AnswersOwed (n.tornBy (n.due source)) :=
      answersOwed_handleEvents steady.owes steady.distinctEvents
    exact busy (sameState ▸ handled.cleared answer.key isTorn slot found)
  all_goals trivial

/-- Waiting answers match open negotiations, and can be taken out, all along a run exactly if its
teardowns take along what waits for the flows they end. -/
theorem answersOpen_iff_teardownsTakeAnswers (settings : Settings)
    (operations : List Operation) :
    (∀ n ∈ reached (new settings) operations, n.AnswersOpen ∧ n.AnswersTakeable) ↔
      ∀ step ∈ steps (new settings) operations, step.1.TeardownsTakeAnswers step.2 := by
  apply Runs.reached_iff_steps Steady
  · intro n steady
    have answersOpen := answersOpen_of_steady steady
    exact ⟨answersOpen, answersTakeable_of_answersOpen answersOpen⟩
  · intro n operation steady taken
    exact steady_apply steady taken
  · intro n operation steady holds
    exact teardownsTakeAnswers_of_answersOpen steady holds.1
  · exact steady_new settings

/-- Two flows of one station are granted, and the first is torn down before its answer is taken. -/
def tornBeforeTaken : List Operation :=
  let peer : MacAddress := ⟨2, 0, 0, 0, 0, 1⟩
  [.receiveElement peer (requestElement 0 1 1024), .receiveElement peer (requestElement 1 1 1024),
    .handleEvents none, .receiveTeardown peer 0, .handleEvents none]

/-- The answer of the flow that was torn down is left behind, and taking it out fails. -/
theorem not_answersTakeable_tornBeforeTaken :
    ¬ ∀ n ∈ reached (new .accessPoint) tornBeforeTaken, n.AnswersOpen ∧ n.AnswersTakeable := by
  intro holds
  obtain ⟨answer, taken⟩ := (holds _ (run_mem_reached _ _)).2 ⟨2, 0, 0, 0, 0, 1⟩
  have refused : ((run (new .accessPoint) tornBeforeTaken).takeAnswer
      ⟨2, 0, 0, 0, 0, 1⟩).1.toOption = none := by
    decide +kernel
  rw [taken] at refused
  cases refused

end TargetWakeTime.Negotiation
