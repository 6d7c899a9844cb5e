import TargetWakeTime.Proofs.Negotiation.OwnFlows

/-!
Contract: every installation has been asked for, and no installation is queued twice.

Owns:
- the commands for the chip that an operation queues, and the calls that ask for a flow;
- the credit of a flow, which is one while the flow is under consideration: a call that asks for the
  flow gives it, an acceptance takes it, and nothing else adds to it;
- that no run queues more installations of a flow than calls have asked for the flow, whatever comes
  in, however often and in whichever order;
- what can be seen of a flow, which the events of other flows leave alone.
-/

namespace TargetWakeTime

/-- Whether a command installs a flow. -/
def Event.installs (flow : UInt8) (e : Event) : Bool := e.command?.isSome && e.flow == flow

namespace Requester

variable {r : Requester} {flow other : UInt8}

/-! ### What can be seen of a flow -/

/-- A flow as its requester sees it: where its negotiation stands, the agreement once there is one,
and the commands for the chip that wait. -/
structure View where
  state : AgreementState
  agreement : Option Agreement
  commands : List Event
deriving DecidableEq, Repr

def view (flow : UInt8) (r : Requester) : View :=
  ⟨r.state flow, r.agreement? flow, r.commands.toList.filter (·.flow = flow)⟩

theorem view_of_slot? {s : Requester} (slot : s.slots.get? flow = r.slots.get? flow)
    (commands : s.commands.toList.filter (·.flow = flow) =
      r.commands.toList.filter (·.flow = flow)) :
    s.view flow = r.view flow := by
  simp only [view, state, Slots.state, agreement?, Slots.agreement?, slot, commands]

/-- What is written for one flow cannot be seen of another one. -/
theorem view_setState {state : AgreementState} (apart : other ≠ flow) :
    (r.setState flow state).view other = r.view other := by
  refine view_of_slot? ?_ rfl
  rw [slot?_setState, if_neg apart]

theorem view_setAgreement {agreement : Option Agreement} (apart : other ≠ flow) :
    (r.setAgreement flow agreement).view other = r.view other := by
  refine view_of_slot? ?_ rfl
  rw [slot?_setAgreement, if_neg apart]

theorem view_pushCommand {event : Event} (apart : other ≠ event.flow) :
    (r.pushCommand event).view other = r.view other := by
  refine view_of_slot? rfl ?_
  simp [pushCommand, List.filter_append, Ne.symm apart]

/-! ### The credit of a flow -/

/-- How many more acceptances of a flow count: one while the flow is under consideration. -/
def credit (flow : UInt8) (r : Requester) : Nat := (r.state flow).isConsidering.toNat

theorem credit_le_one : r.credit flow ≤ 1 := Bool.toNat_le _

theorem credit_of_view {s : Requester} (same : s.view flow = r.view flow) :
    s.credit flow = r.credit flow := by
  rw [credit, show s.state flow = r.state flow from congrArg View.state same, credit]

theorem credit_setAgreement {agreement : Option Agreement} :
    (r.setAgreement flow agreement).credit other = r.credit other := by
  rw [credit, state_setAgreement, credit]

/-- A flow whose negotiation is over has no credit. -/
theorem credit_setState_self {state : AgreementState} (ended : state.isConsidering = false) :
    (r.setState flow state).credit flow = 0 := by
  rw [credit, isConsidering_setState ended]
  rfl

/-- The end of a negotiation gives no flow credit. -/
theorem credit_setState_le {state : AgreementState} (ended : state.isConsidering = false) :
    (r.setState flow state).credit other ≤ r.credit other := by
  by_cases same : other = flow
  · rw [same, credit_setState_self ended]
    exact Nat.zero_le _
  · exact Nat.le_of_eq (credit_of_view (view_setState same))

theorem credit_of_empty (empty : r.slots = .empty) : r.credit flow = 0 := by
  simp only [credit, state, Slots.state, empty, Slots.get?, Slots.empty, Vector.getElem?_replicate]
  split <;> rfl

end Requester

namespace Negotiation

variable {n m : Negotiation} {event : Event} {flow other : UInt8} {operation : Operation}

/-! ### Queueing and asking -/

/-- The commands for the chip that an operation queues. -/
def Operation.enqueued (n : Negotiation) (operation : Operation) : List Event :=
  (operation.apply n).own.commands.toList.drop n.own.commands.size

/-- All commands for the chip that a run queues, oldest first. -/
def everEnqueued (n : Negotiation) (operations : List Operation) : List Event :=
  (steps n operations).flatMap fun step => step.2.enqueued step.1

/-- Whether an operation asks for a flow: a request is sent or kept without an error, or the element
of a kept request is handed out. -/
def Operation.solicits (flow : UInt8) (n : Negotiation) : Operation → Bool
  | sendRequest agreement command =>
      (n.sendRequest agreement command).1.isOk && agreement.flow == flow
  | associationRequestElement =>
      n.associationRequestElement.1.isSome && n.own.stored.any (·.flow == flow)
  | _ => false

theorem solicits_of_asks (asks : operation.asks? n = some flow) :
    operation.solicits flow n = true := by
  cases operation
  case sendRequest agreement command =>
    rw [Operation.asks?] at asks
    split at asks
    case isFalse => cases asks
    case isTrue asker =>
      obtain ⟨requester, request⟩ := Bool.and_eq_true_iff.mp asker
      cases asks
      simp only [Operation.solicits, sendRequest, requester, request, Bool.not_true,
        Bool.false_eq_true, if_false, beq_self_eq_true, Bool.and_true]
      rfl
  case associationRequestElement =>
    rw [Operation.asks?] at asks
    split at asks
    case h_1 source stored command agreement found =>
      split at asks
      case isFalse => cases asks
      case isTrue asker =>
        cases asks
        simp [Operation.solicits, associationRequestElement, found, asker]
    case h_2 => cases asks
  all_goals cases asks

/-! ### Single events -/

/-- An event leaves all flows but its own alone. -/
theorem view_of_ownHandled (handled : OwnHandled event n m) (apart : other ≠ event.flow) :
    m.own.view other = n.own.view other := by
  cases handled with
  | kept same => rw [same]
  | accepted _ _ own | torn _ own =>
      rw [own, Requester.view_pushCommand apart, Requester.view_setAgreement apart,
        Requester.view_setState apart]
  | refused _ own => rw [own, Requester.view_setState apart]

/-- What an event adds to the commands, it pays for with credit. -/
theorem exists_added_of_ownHandled (handled : OwnHandled event n m) (flow : UInt8) :
    ∃ added, m.own.commands.toList = n.own.commands.toList ++ added ∧
      added.countP (·.installs flow) + m.own.credit flow ≤ n.own.credit flow := by
  cases handled with
  | kept same =>
      refine ⟨[], ?_, ?_⟩
      · rw [same, List.append_nil]
      · exact Nat.le_of_eq (by rw [same, List.countP_nil, Nat.zero_add])
  | @accepted agreement accepts considering own =>
      refine ⟨[event], by rw [own]; rfl, ?_⟩
      have credit : m.own.credit flow = (n.own.setState event.flow .agreement).credit flow := by
        rw [own]
        exact Requester.credit_setAgreement
      rw [credit, List.countP_singleton]
      by_cases same : flow = event.flow
      · subst same
        have spent : (n.own.setState event.flow .agreement).credit event.flow = 0 :=
          Requester.credit_setState_self rfl
        have held : n.own.credit event.flow = 1 := by
          rw [Requester.credit, considering]
          rfl
        rw [spent, held]
        split <;> omega
      · have another : event.installs flow = false := by simp [Event.installs, Ne.symm same]
        rw [another, Requester.credit_of_view (Requester.view_setState same)]
        simp
  | refused _ own =>
      refine ⟨[], by rw [own, List.append_nil]; rfl, ?_⟩
      rw [own, List.countP_nil, Nat.zero_add]
      exact Requester.credit_setState_le rfl
  | torn tears own =>
      refine ⟨[event], by rw [own]; rfl, ?_⟩
      have plain : event.installs flow = false := by simp [Event.installs, Event.command?, tears]
      have credit : m.own.credit flow = (n.own.setState event.flow .noAgreement).credit flow := by
        rw [own]
        exact Requester.credit_setAgreement
      rw [credit, List.countP_singleton, plain]
      simpa using Requester.credit_setState_le rfl

/-- So does a handling of many events. -/
theorem exists_added_handleEvents (source : Option MacAddress) (flow : UInt8) (n : Negotiation) :
    ∃ added, (n.handleEvents source).own.commands.toList = n.own.commands.toList ++ added ∧
      added.countP (·.installs flow) + (n.handleEvents source).own.credit flow ≤
        n.own.credit flow := by
  refine own_handleEvents (fun own => ∃ added,
    own.commands.toList = n.own.commands.toList ++ added ∧
      added.countP (·.installs flow) + own.credit flow ≤ n.own.credit flow) ?_ ?_
  · rintro event - before after handled ⟨earlier, grown, paid⟩
    obtain ⟨added, grownThen, paidThen⟩ := exists_added_of_ownHandled handled flow
    refine ⟨earlier ++ added, ?_, ?_⟩
    · rw [grownThen, grown, List.append_assoc]
    · rw [List.countP_append]
      omega
  · exact ⟨[], (List.append_nil _).symm, by simp⟩

/-! ### Single operations -/

/-- What an operation does to the commands and to the credit of a flow. It puts new commands behind
those that wait and pays for its installations, or it queues none and may give some credit. -/
inductive Accounted (flow : UInt8) (n m : Negotiation) (given : Nat) : Prop where
  | grown {added : List Event} (commands : m.own.commands.toList = n.own.commands.toList ++ added)
      (paid : added.countP (·.installs flow) + m.own.credit flow ≤ n.own.credit flow)
  | shrunk (commands : m.own.commands.toList.Sublist n.own.commands.toList)
      (paid : m.own.credit flow ≤ n.own.credit flow + given)

/-- Commands may be taken away, and credit may be lost. -/
theorem Accounted.of_sublist {given : Nat}
    (commands : m.own.commands.toList.Sublist n.own.commands.toList)
    (credit : m.own.credit flow ≤ n.own.credit flow) : Accounted flow n m given :=
  .shrunk commands (Nat.le_add_right_of_le credit)

theorem Accounted.of_same {given : Nat} (commands : m.own.commands = n.own.commands)
    (credit : m.own.credit flow ≤ n.own.credit flow) : Accounted flow n m given :=
  .of_sublist (commands ▸ List.Sublist.refl _) credit

/-- Only an operation that asks for the flow gives it credit. -/
theorem accounted_apply (n : Negotiation) (operation : Operation) (flow : UInt8) :
    Accounted flow n (operation.apply n) (operation.solicits flow n).toNat := by
  have result := ownApplied n operation
  generalize operation.apply n = m at result ⊢
  cases result with
  | kept same => exact .of_same (by rw [same]) (Nat.le_of_eq (by rw [same]))
  | @asked _ _ asked command asks slots _ commands =>
      by_cases same : flow = asked
      · subst same
        refine .shrunk (commands ▸ List.Sublist.refl _) ?_
        rw [solicits_of_asks asks]
        exact Nat.le_trans Requester.credit_le_one (Nat.le_add_left 1 _)
      · refine .of_same commands (Nat.le_of_eq (Requester.credit_of_view ?_))
        refine Requester.view_of_slot? ?_ (by rw [commands])
        rw [slots, Slots.setState, Slots.get?_modify, if_neg same]
  | handled source =>
      obtain ⟨added, commands, paid⟩ := exists_added_handleEvents source flow n
      exact .grown commands paid
  | ended own =>
      refine .of_same (by rw [own]; rfl) ?_
      rw [own, Requester.credit_setAgreement]
      exact Requester.credit_setState_le rfl
  | queued destination torn =>
      have commands : (n.teardownSent destination torn).own.commands.toList =
          n.own.commands.toList ++ [.teardown destination torn] := rfl
      exact .grown commands (Nat.le_of_eq (Nat.zero_add _))
  | taken => exact .of_sublist (List.nil_sublist _) (Nat.le_refl _)
  | forced agreement =>
      have credit : (n.forceInstalled agreement).own.credit flow =
          (n.own.setState agreement.flow .agreement).credit flow :=
        Requester.credit_setAgreement
      refine .of_same rfl ?_
      rw [credit]
      exact Requester.credit_setState_le rfl
  | installed | uninstalled => exact .of_same rfl (Nat.le_refl _)
  | reset leaves own =>
      refine .of_sublist ?_ ?_
      · rw [own]
        exact List.filter_sublist
      · rw [own, Requester.credit_of_empty rfl]
        exact Nat.zero_le _
  | cleared =>
      refine .of_sublist List.filter_sublist ?_
      rw [Requester.credit_of_empty rfl]
      exact Nat.zero_le _

theorem enqueued_of_append {added : List Event}
    (commands : (operation.apply n).own.commands.toList = n.own.commands.toList ++ added) :
    operation.enqueued n = added := by
  rw [Operation.enqueued, commands]
  exact List.drop_left

theorem enqueued_of_sublist
    (commands : (operation.apply n).own.commands.toList.Sublist n.own.commands.toList) :
    operation.enqueued n = [] :=
  List.drop_eq_nil_of_le commands.length_le

/-- No operation both takes commands away and queues new ones. -/
theorem commands_apply (n : Negotiation) (operation : Operation) :
    (operation.apply n).own.commands.toList =
        n.own.commands.toList ++ operation.enqueued n ∨
      operation.enqueued n = [] ∧
        (operation.apply n).own.commands.toList.Sublist n.own.commands.toList := by
  cases accounted_apply n operation 0 with
  | grown commands =>
      rw [enqueued_of_append commands]
      exact Or.inl commands
  | shrunk commands => exact Or.inr ⟨enqueued_of_sublist commands, commands⟩

/-- An operation pays for the installations that it queues with credit of their flow. -/
theorem paid_apply (n : Negotiation) (operation : Operation) (flow : UInt8) :
    (operation.enqueued n).countP (·.installs flow) + (operation.apply n).own.credit flow ≤
      n.own.credit flow + (operation.solicits flow n).toNat := by
  cases accounted_apply n operation flow with
  | grown commands paid =>
      rw [enqueued_of_append commands]
      exact Nat.le_add_right_of_le paid
  | shrunk commands paid =>
      rw [enqueued_of_sublist commands, List.countP_nil, Nat.zero_add]
      exact paid

/-! ### Runs -/

/-- Nothing waits for the chip that was not queued, and it waits in the order in which it was. -/
theorem commands_run (n : Negotiation) (operations : List Operation) :
    (run n operations).own.commands.toList.Sublist
      (n.own.commands.toList ++ everEnqueued n operations) := by
  induction operations generalizing n with
  | nil => exact List.sublist_append_left ..
  | cons operation rest inductionHypothesis =>
      have first : (operation.apply n).own.commands.toList.Sublist
          (n.own.commands.toList ++ operation.enqueued n) := by
        rcases commands_apply n operation with grown | ⟨nothing, shrunk⟩
        · exact grown ▸ List.Sublist.refl _
        · rw [nothing, List.append_nil]
          exact shrunk
      have enqueued : everEnqueued n (operation :: rest) =
          operation.enqueued n ++ everEnqueued (operation.apply n) rest := rfl
      rw [enqueued, ← List.append_assoc]
      exact (inductionHypothesis (operation.apply n)).trans (first.append_right _)

theorem paid_run (n : Negotiation) (operations : List Operation) (flow : UInt8) :
    (everEnqueued n operations).countP (·.installs flow) + (run n operations).own.credit flow ≤
      n.own.credit flow + (steps n operations).countP fun step => step.2.solicits flow step.1 := by
  induction operations generalizing n with
  | nil => simp [everEnqueued, steps, Runs.steps, run]
  | cons operation rest inductionHypothesis =>
      have first := paid_apply n operation flow
      have later := inductionHypothesis (operation.apply n)
      have enqueued : everEnqueued n (operation :: rest) =
          operation.enqueued n ++ everEnqueued (operation.apply n) rest := rfl
      have asked : ((steps n (operation :: rest)).countP fun step => step.2.solicits flow step.1) =
          (operation.solicits flow n).toNat +
            (steps (operation.apply n) rest).countP fun step => step.2.solicits flow step.1 := by
        rw [steps, Runs.steps, List.countP_cons, Nat.add_comm]
        cases operation.solicits flow n <;> rfl
      rw [enqueued, List.countP_append, asked]
      have goesOn : run n (operation :: rest) = run (operation.apply n) rest := rfl
      rw [goesOn]
      omega

/-- Whatever comes in, a run queues at most as many installations of a flow as calls have asked for
it. And the events of a flow leave all other flows alone. -/
theorem installs_le_solicits (settings : Settings) (operations : List Operation) (flow : UInt8) :
    (everEnqueued (new settings) operations).countP (·.installs flow) ≤
        (steps (new settings) operations).countP (fun step => step.2.solicits flow step.1) ∧
      ∀ (n : Negotiation) (event : Event), event.flow ≠ flow →
        (n.handleEvent event).1.own.view flow = n.own.view flow := by
  refine ⟨?_, fun n event apart => view_of_ownHandled (ownHandled event n) (Ne.symm apart)⟩
  have paid := paid_run (new settings) operations flow
  have poor : (new settings).own.credit flow = 0 := Requester.credit_of_empty rfl
  omega

/-- An acceptance that comes in again is not carried out again. -/
example :
    let asked := Agreement.ofParameters .zero
      { Parameters.zero with
        requestType := { RequestType.zero with implicit := true }
        minimumDuration := 1
        mantissa := 1024 }
    let accepted : Operation :=
      .receiveElement ⟨2, 0, 0, 0, 0, 160⟩ (asked.withCommand .accept).element
    (everEnqueued (new .station) [.sendRequest asked .request, accepted, .handleEvents none,
      accepted, .handleEvents none]).countP (·.installs 0) = 1 := by
  decide +kernel

end Negotiation

end TargetWakeTime
