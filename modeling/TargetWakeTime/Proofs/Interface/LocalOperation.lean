import TargetWakeTime.Proofs.Interface.Actions
import TargetWakeTime.Proofs.Negotiation.OwnFlows

/-!
Contract: local operations that are carried out in one go, and what is left of one that fails.

Owns:
- the two local operations, with both halves and the chip's answer between them;
- interfaces that can be reached, in which no work is left behind between operations;
- that an operation that fails leaves the interface exactly as it was, unless it clears the slot of a
  flow before it asks the chip to remove it.

Configuring a flow checks first and changes the state only after the chip's answer. A teardown that no
frame announces is the other way round: it clears the slot first, and nothing puts it back.
-/

namespace TargetWakeTime

/-- Slots are the same if they are for every flow. -/
theorem Slots.ext_get? {slots others : Slots} (same : ∀ flow, slots.get? flow = others.get? flow) :
    slots = others := by
  refine Vector.ext fun index bound => ?_
  have small : (UInt8.ofNat index).toNat = index := by
    rw [UInt8.toNat_ofNat', Nat.mod_eq_of_lt (Nat.lt_trans bound (by decide))]
  have here := same (UInt8.ofNat index)
  rw [get?, get?, small, Vector.getElem?_eq_getElem bound, Vector.getElem?_eq_getElem bound] at here
  exact Option.some.inj here

namespace Requester

theorem withoutSlot_eq_iff (flow : UInt8) (r : Requester) :
    r.withoutSlot flow = r ↔ ∀ slot, r.slots.get? flow = some slot → slot = {} := by
  have cleared : (r.withoutSlot flow).slots.get? flow =
      (r.slots.get? flow).map fun _ => ({} : Slot) := by
    rw [withoutSlot, slot?_setAgreement, if_pos rfl, slot?_setState, if_pos rfl]
    cases r.slots.get? flow <;> rfl
  constructor
  · intro same slot found
    rw [same, found] at cleared
    exact Option.some.inj cleared
  · intro empty
    have same : (r.withoutSlot flow).slots = r.slots := by
      refine Slots.ext_get? fun other => ?_
      rw [withoutSlot, slot?_setAgreement, slot?_setState, if_pos rfl, slot?_setState]
      by_cases own : other = flow
      · subst own
        rw [if_pos rfl]
        cases found : r.slots.get? other with
        | none => rfl
        | some slot =>
            rw [empty slot found]
            rfl
      · rw [if_neg own, if_neg own]
    show { r with slots := (r.withoutSlot flow).slots } = r
    rw [same]

end Requester

namespace Negotiation

theorem sendRequest_of_error {n : Negotiation} {agreement : Agreement} {command : SetupCommand}
    {error : Error} (failed : (n.sendRequest agreement command).1 = .error error) :
    (n.sendRequest agreement command).2 = n := by
  unfold sendRequest at failed ⊢
  split
  · rfl
  · split
    · rfl
    · simp_all

end Negotiation

namespace Interface

variable {i : Interface}

/-- The interfaces that there can be: new ones, and what actions and clearing make of them. -/
inductive Reachable : Interface → Prop where
  | new (vif : UInt16) (address : MacAddress) (settings : Negotiation.Settings) :
      Reachable (new vif address settings)
  | act {i : Interface} (reachable : Reachable i) (action : Action) : Reachable (action.apply i)
  | clear {i : Interface} (reachable : Reachable i) : Reachable i.clear

/-! ### No work is left behind -/

/-- An action that leaves work hands it over. -/
theorem tasks_apply (handedOver : i.negotiation.tasks = []) (action : Action) :
    (action.apply i).negotiation.tasks = [] := by
  rw [negotiation_apply]
  cases action with
  | associationRequest source element | associationResponse source element =>
      rw [Action.operations, Action.received]
      split <;> rfl
  | complete call answer =>
      cases answer with
      | error error => cases call <;> exact handedOver
      | ok =>
          cases call with
          | install | negotiate => rfl
          | uninstall => exact handedOver
  | work =>
      rw [Action.operations]
      split
      case h_1 task queue _ =>
        cases task with
        | sendTeardown =>
            rw [Action.taskOperations]
            split
            · exact handedOver
            · rfl
        | handleEvents => rfl
        | sendSetup | applyCommands | retryEvents => exact handedOver
      case h_2 => exact handedOver
  | frameSent =>
      rw [Action.operations]
      split
      · rfl
      · exact handedOver
  | commandDone succeeded =>
      rw [Action.operations]
      split
      · split
        · split <;> exact handedOver
        · exact handedOver
      · exact handedOver
  | relink | wake => exact handedOver
  | receiveSetup | receiveTeardown | associationRequestElement | authorized | removeStation
      | purgeEvents | teardown => rfl

theorem Reachable.tasks (reachable : Reachable i) : i.negotiation.tasks = [] := by
  induction reachable with
  | new => rfl
  | act _ action handedOver => exact tasks_apply handedOver action
  | clear => rfl

theorem push_nil (w : Worker) : w.push [] = w := by
  unfold Worker.push
  split
  · rfl
  · rw [List.append_nil]

/-- An operation that leaves no work hands nothing over. -/
theorem operate_of_silent {α : Type} {operation : Negotiation → α × Negotiation} {result : α}
    {n : Negotiation} (found : operation i.negotiation = (result, n)) (silent : n.tasks = []) :
    i.operate operation = (result, { i with negotiation := n }) := by
  unfold operate
  rw [found]
  dsimp only [Negotiation.takeTasks]
  rw [silent, List.map_nil, push_nil, ← silent]

/-! ### Operations in one go -/

/-- What is asked of an interface locally. -/
inductive LocalOperation where
  | configure (r : SetupRequest)
  | teardown (flow : UInt8)
deriving DecidableEq, Repr

/-- Carries an operation out with nothing else in between. The chip is asked at most once. -/
def carryOut (chip : Host.Command → Except Host.CommandError Unit) (operation : LocalOperation)
    (i : Interface) : Except Error Unit × Interface :=
  match operation with
  | .configure r =>
      match i.configure r with
      | .error error => (.error error, i)
      | .ok (call, command) => i.complete call (chip command)
  | .teardown flow =>
      match i.teardown flow with
      | (.error error, i) => (.error error, i)
      | (.ok none, i) => (.ok (), i)
      | (.ok (some (call, command)), i) => i.complete call (chip command)

/-- A flow is torn down without a frame: the chip runs it, and there is no access point to tell. -/
structure Unannounced (i : Interface) (flow : UInt8) : Prop where
  small : flow.toNat < 8
  installed : i.negotiation.own.isInstalled flow = true
  link : i.negotiation.link.accessPoint? = none

/-- An operation clears a slot that is not empty, and only then asks the chip to remove the flow. -/
def Erases (i : Interface) : LocalOperation → Prop
  | .configure _ => False
  | .teardown flow =>
      i.Unannounced flow ∧ ∃ slot, i.negotiation.own.slots.get? flow = some slot ∧ slot ≠ {}

/-- The interface with the slot of a flow cleared, and all else as it is. -/
def withoutSlot (flow : UInt8) (i : Interface) : Interface :=
  { i with negotiation := i.negotiation.withOwn (·.withoutSlot flow) }

theorem withoutSlot_eq_iff (flow : UInt8) (i : Interface) :
    i.withoutSlot flow = i ↔ ¬ ∃ slot, i.negotiation.own.slots.get? flow = some slot ∧ slot ≠ {} := by
  have own : i.withoutSlot flow = i ↔ i.negotiation.own.withoutSlot flow = i.negotiation.own := by
    constructor
    · exact fun same => congrArg (·.negotiation.own) same
    · intro same
      rw [withoutSlot, Negotiation.withOwn, same]
  rw [own, Requester.withoutSlot_eq_iff]
  constructor
  · rintro empty ⟨slot, found, filled⟩
    exact filled (empty slot found)
  · intro unfilled slot found
    exact Decidable.byContradiction fun filled => unfilled ⟨slot, found, filled⟩

variable {chip : Host.Command → Except Host.CommandError Unit} {error : Error}

/-- The chip's answer changes nothing if it is a failure, or if a request cannot be sent after it. -/
theorem complete_of_error {call : LocalCall} {answer : Except Host.CommandError Unit}
    (handedOver : i.negotiation.tasks = []) (failed : (i.complete call answer).1 = .error error) :
    (i.complete call answer).2 = i := by
  cases answer with
  | error error => rfl
  | ok =>
      cases call with
      | install | uninstall => cases failed
      | negotiate agreement command =>
          have refused : i.negotiation.sendRequest agreement command =
              (.error error, i.negotiation) :=
            Prod.ext failed (Negotiation.sendRequest_of_error failed)
          show (i.operate (·.sendRequest agreement command)).2 = i
          rw [operate_of_silent refused handedOver]

theorem configure_of_error {r : SetupRequest} (handedOver : i.negotiation.tasks = [])
    (failed : (i.carryOut chip (.configure r)).1 = .error error) :
    (i.carryOut chip (.configure r)).2 = i := by
  unfold carryOut at failed ⊢
  dsimp only at failed ⊢
  split at failed
  · rfl
  · exact complete_of_error handedOver failed

/-- A teardown that fails has cleared the slot of the flow if no frame was to go first. -/
theorem teardown_of_error {flow : UInt8} (handedOver : i.negotiation.tasks = [])
    (failed : (i.carryOut chip (.teardown flow)).1 = .error error) :
    (i.Unannounced flow ∧ (i.carryOut chip (.teardown flow)).2 = i.withoutSlot flow) ∨
      (¬ i.Unannounced flow ∧ (i.carryOut chip (.teardown flow)).2 = i) := by
  have begun := Negotiation.teardownBegun flow i.negotiation
  generalize result : i.negotiation.beginTeardown flow = began at begun
  cases begun with
  | refused error idle =>
      have operated := operate_of_silent result handedOver
      refine .inr ⟨fun unannounced => idle ⟨unannounced.small, unannounced.installed⟩, ?_⟩
      simp only [carryOut, teardown, operated]
  | announced link =>
      obtain ⟨after, operated⟩ :
          ∃ after, i.operate (·.beginTeardown flow) = (.ok false, after) :=
        ⟨_, Prod.ext (congrArg (·.1) result) rfl⟩
      simp only [carryOut, teardown, operated] at failed
      cases failed
  | unannounced active link =>
      have operated := operate_of_silent result handedOver
      refine .inl ⟨⟨active.1, active.2, link⟩, ?_⟩
      have asked : i.carryOut chip (.teardown flow) =
          (i.withoutSlot flow).complete (.uninstall flow) (chip (.remove i.vif flow)) := by
        simp only [carryOut, teardown, operated]
        rfl
      rw [asked] at failed ⊢
      exact complete_of_error handedOver failed

/-- A local operation that fails leaves the interface exactly as it was if and only if it does not
clear the slot of a flow first, and then the cleared slot is all that it leaves. -/
theorem untouched_iff_not_erases (reachable : Reachable i)
    (chip : Host.Command → Except Host.CommandError Unit) (operation : LocalOperation)
    (failed : (i.carryOut chip operation).1 = .error error) :
    ((i.carryOut chip operation).2 = i ↔ ¬ i.Erases operation) ∧
      ∀ flow, operation = .teardown flow → i.Erases operation →
        (i.carryOut chip operation).2 = i.withoutSlot flow := by
  cases operation with
  | configure r =>
      have untouched : (i.carryOut chip (.configure r)).2 = i :=
        configure_of_error reachable.tasks failed
      exact ⟨iff_of_true untouched id, fun flow other => nomatch other⟩
  | teardown flow =>
      rcases teardown_of_error reachable.tasks failed with ⟨unannounced, left⟩ | ⟨announced, left⟩
      · rw [left, withoutSlot_eq_iff]
        refine ⟨not_congr ⟨fun filled => ⟨unannounced, filled⟩, (·.2)⟩, ?_⟩
        rintro _ ⟨⟩ -
        rfl
      · refine ⟨iff_of_true left fun erases => announced erases.1, ?_⟩
        rintro _ ⟨⟩ erases
        exact absurd erases.1 announced

/-- A chip that refuses everything. -/
def refusing (_ : Host.Command) : Except Host.CommandError Unit := .error (.deviceError 22)

/-- A station that was never associated, with a forced agreement on its chip. -/
def forcedStation : Interface :=
  let agreement := Agreement.ofParameters .zero
    { Parameters.zero with
      requestType := { RequestType.zero with implicit := true }
      minimumDuration := 4
      mantissa := 50000 }
  (Action.complete (.install agreement) (.ok ())).apply
    (new 1 ⟨2, 0, 0, 0, 0, 9⟩ Negotiation.Settings.station)

theorem reachable_forcedStation : Reachable forcedStation :=
  .act (.new ..) (.complete (.install _) (.ok ()))

/-- The chip refuses a second agreement that the station wants to ask for, and nothing is left of it. It
refuses to remove the first one, and of that the slot is lost. -/
theorem untouched_iff_not_erases_forcedStation :
    let asks : LocalOperation :=
      .configure { flow := 1, interval := .explicit 50000 1, duration := 1024 }
    let refused : Except Error Unit := .error (.host (.deviceError 22))
    (forcedStation.carryOut refusing asks).1 = refused ∧
      (forcedStation.carryOut refusing asks).2 = forcedStation ∧
      (forcedStation.carryOut refusing (.teardown 0)).1 = refused ∧
      (forcedStation.carryOut refusing (.teardown 0)).2 = forcedStation.withoutSlot 0 ∧
      forcedStation.withoutSlot 0 ≠ forcedStation := by
  intro asks refused
  have known (operation : LocalOperation)
      (failed : (forcedStation.carryOut refusing operation).1 = refused) :=
    untouched_iff_not_erases reachable_forcedStation refusing operation failed
  have erases : forcedStation.Erases (.teardown 0) :=
    ⟨⟨by decide, by decide +kernel, rfl⟩, _, rfl, by decide +kernel⟩
  exact ⟨rfl, (known asks rfl).1.mpr id, rfl, (known (.teardown 0) rfl).2 0 rfl erases,
    by decide +kernel⟩

/-- The chip refuses to remove the agreement and goes on running it, and the station has no agreement
for the flow any more. -/
theorem not_untouched_refusedRemoval :
    ¬ ∀ i, Reachable i → ∀ chip operation error, (i.carryOut chip operation).1 = .error error →
      (i.carryOut chip operation).2 = i := by
  intro holds
  have same := holds forcedStation reachable_forcedStation refusing (.teardown 0) (.host (.deviceError 22)) rfl
  revert same
  decide +kernel

end Interface

end TargetWakeTime
