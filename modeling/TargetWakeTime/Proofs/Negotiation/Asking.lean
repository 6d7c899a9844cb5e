import TargetWakeTime.Proofs.Agreement.Legible
import TargetWakeTime.Proofs.Negotiation.OwnFlows

/-!
Contract: a requester that answers nobody and never has more than one event queued.

Owns:
- the state of such a requester, which its own flows, its link and the queued events make up;
- what each operation makes of it, with the tasks that it leaves;
- that an operation about one flow leaves all other own flows as they are.
-/

namespace TargetWakeTime

theorem Slots.get?_of_lt {flow : UInt8} (small : flow.toNat < 8) (slots : Slots) :
    slots.get? flow = some slots[flow.toNat] := by
  simp [Slots.get?, small]

/-- Without any negotiation there is no agreement. -/
theorem Slots.state_empty (flow : UInt8) : Slots.empty.state flow = .noAgreement := by
  simp only [Slots.state, Slots.get?, Slots.empty, Vector.getElem?_replicate]
  split <;> rfl

namespace Requester

variable {r s t : Requester} {flow other : UInt8}

/-- All flows but one are as they were. -/
def Elsewhere (flow : UInt8) (r s : Requester) : Prop :=
  ∀ other, other.toNat < 8 → other ≠ flow →
    s.slots.get? other = r.slots.get? other ∧ s.isInstalled other = r.isInstalled other

theorem Elsewhere.refl (flow : UInt8) (r : Requester) : Elsewhere flow r r :=
  fun _ _ _ => ⟨rfl, rfl⟩

theorem Elsewhere.trans (first : Elsewhere flow r s) (second : Elsewhere flow s t) :
    Elsewhere flow r t := fun other small apart =>
  ⟨(second other small apart).1.trans (first other small apart).1,
    (second other small apart).2.trans (first other small apart).2⟩

theorem elsewhere_setState (state : AgreementState) (r : Requester) :
    Elsewhere flow r (r.setState flow state) := fun other _ apart =>
  ⟨by rw [slot?_setState, if_neg apart], rfl⟩

theorem elsewhere_setAgreement (agreement : Option Agreement) (r : Requester) :
    Elsewhere flow r (r.setAgreement flow agreement) := fun other _ apart =>
  ⟨by rw [slot?_setAgreement, if_neg apart], rfl⟩

theorem elsewhere_setInstalled (small : flow.toNat < 8) (value : Bool) (r : Requester) :
    Elsewhere flow r (r.setInstalled flow value) := fun other otherSmall apart =>
  ⟨rfl, by rw [isInstalled_setInstalled small otherSmall, if_neg apart]⟩

/-- The slot of a flow after its negotiation came to an end. -/
theorem slot?_ended {state : AgreementState} {agreement : Option Agreement} (small : flow.toNat < 8) :
    ((r.setState flow state).setAgreement flow agreement).slots.get? flow =
      some ⟨state, agreement⟩ := by
  rw [slot?_setAgreement, if_pos rfl, slot?_setState, if_pos rfl, Slots.get?_of_lt small]
  rfl

theorem state_setState (small : flow.toNat < 8) (state : AgreementState) (r : Requester) :
    (r.setState flow state).state flow = state := by
  rw [Requester.state, Slots.state, slot?_setState, if_pos rfl, Slots.get?_of_lt small]
  rfl

end Requester

namespace Negotiation

/-- A requester with these own flows, this link and these events. -/
def asking (own : Requester) (link : Association) (queued : List Event) : Negotiation :=
  { new .station with own, link, events := ⟨queued⟩ }

variable {own : Requester} {link : Association} {accessPoint source : MacAddress} {flow token : UInt8}
  {agreement : Agreement} {command : SetupCommand} {event : Event}

/-- A request is sent while there is an access point. -/
theorem sendRequest_of_joined (joined : link.accessPoint? = some accessPoint)
    (requests : command.isRequest = true) :
    (asking own link []).sendRequest agreement command =
      (.ok (),
        { asking ({ own with dialogToken := own.dialogToken + 1 }.setState
            (agreement.withCommand command).flow (considering command)) link [] with
          tasks := [.sendSetup accessPoint (own.dialogToken + 1)
            (agreement.withCommand command).element (agreement.withCommand command).flow] }) := by
  have joined : (asking own link []).link.accessPoint? = some accessPoint := joined
  simp only [sendRequest, requests, joined]
  rfl

/-- A request is kept while there is none. -/
theorem sendRequest_of_parted (parted : link.accessPoint? = none)
    (requests : command.isRequest = true) :
    (asking own link []).sendRequest agreement command =
      (.ok (), asking ({ own with
        stored := some (.setup .zero (agreement.withCommand command)) }.setState
          (agreement.withCommand command).flow (considering command)) link []) := by
  have parted : (asking own link []).link.accessPoint? = none := parted
  simp only [sendRequest, requests, parted]
  rfl

/-- An answer that can be read is queued. -/
theorem receiveSetup_asking (legible : agreement.Legible) :
    ((asking own link []).receiveSetup source token agreement.element).2 =
      { asking own link [.setup source agreement] with tasks := [.handleEvents none] } := by
  simp only [receiveSetup, receiveElement, legible.parse_element]
  rfl

/-- The one event that is queued is handled. -/
theorem handleEvents_asking {after : Negotiation}
    (handled : (asking own link []).handleEvent event = (after, false)) :
    (asking own link [event]).handleEvents none = after :=
  (handleEvents_of_single rfl (congrArg (·.2) handled)).trans (congrArg (·.1) handled)

/-- An acceptance of a flow under consideration is to be carried out. -/
theorem handleEvents_of_accept (accepts : agreement.command = .accept)
    (considers : (own.state agreement.flow).isConsidering = true) (up : link.associated = true) :
    (asking own link [.setup source agreement]).handleEvents none =
      { asking (((own.setState agreement.flow .agreement).setAgreement agreement.flow
          (some agreement)).pushCommand (.setup source agreement)) link [] with
        tasks := [.applyCommands] } := by
  have handled : (asking own link []).handleEvent (.setup source agreement) =
      ({ asking (((own.setState agreement.flow .agreement).setAgreement agreement.flow
          (some agreement)).pushCommand (.setup source agreement)) link [] with
        tasks := [.applyCommands] }, false) := by
    have considers : ((asking own link []).own.state agreement.flow).isConsidering = true := considers
    simp only [handleEvent, Event.setup, accepts, handleAnswer, considers]
    simp only [SetupCommand.isRequest, deferCommands, withOwn, asking, up]
    rfl
  exact handleEvents_asking handled

/-- A rejection frees a flow under consideration. -/
theorem handleEvents_of_reject (rejects : agreement.command = .reject)
    (considers : (own.state agreement.flow).isConsidering = true) :
    (asking own link [.setup source agreement]).handleEvents none =
      asking (own.setState agreement.flow .noAgreement) link [] := by
  have handled : (asking own link []).handleEvent (.setup source agreement) =
      (asking (own.setState agreement.flow .noAgreement) link [], false) := by
    have considers : ((asking own link []).own.state agreement.flow).isConsidering = true := considers
    simp only [handleEvent, Event.setup, rejects, handleAnswer, considers]
    rfl
  exact handleEvents_asking handled

/-- What was to be carried out is taken up. -/
theorem takeCommands_asking (none : own.commands = {}) (event : Event) :
    (asking (own.pushCommand event) link []).takeCommands = ([event], asking own link []) := by
  obtain ⟨slots, installed, commands, stored, dialogToken⟩ := own
  cases none
  rfl

/-- A flow that the chip runs is torn down by a frame while there is an access point. -/
theorem beginTeardown_of_joined (small : flow.toNat < 8) (installed : own.isInstalled flow = true)
    (joined : link.accessPoint? = some accessPoint) :
    (asking own link []).beginTeardown flow =
      (.ok false,
        { asking ((own.setState flow .noAgreement).setAgreement flow none) link [] with
          tasks := [.sendTeardown accessPoint flow] }) := by
  have inRange : ¬ 7 < flow := not_seven_lt_iff.mpr small
  have installed : (asking own link []).own.isInstalled flow = true := installed
  have joined : (asking own link []).link.accessPoint? = some accessPoint := joined
  simp only [beginTeardown, if_neg inRange, installed, joined, withOwn, defer]
  rfl

/-- A flow that the chip does not run is not torn down. -/
theorem beginTeardown_of_absent (absent : flow.toNat < 8 → own.isInstalled flow = false) :
    ((asking own link []).beginTeardown flow).2 = asking own link [] ∧
      ∃ error, ((asking own link []).beginTeardown flow).1 = .error error := by
  unfold beginTeardown
  split
  · exact ⟨rfl, _, rfl⟩
  case isFalse inRange =>
    have absent : (asking own link []).own.isInstalled flow = false :=
      absent (not_seven_lt_iff.mp inRange)
    rw [absent]
    exact ⟨rfl, _, rfl⟩

/-- When its access point is removed, all flows are forgotten. -/
theorem removeStation_of_joined (joined : link.bssid = some accessPoint) :
    ((asking own link []).removeStation accessPoint).2 = asking (own.reset (some accessPoint)) link [] := by
  have here : (asking own link []).isBssid accessPoint = true := by
    simp [isBssid, asking, joined]
  simp only [removeStation, here]
  rfl

/-- Another peer, which it never listed as a station, is nothing to it. -/
theorem removeStation_of_parted (parted : link.bssid = none) :
    ((asking own link []).removeStation accessPoint).2 = asking own link [] := by
  have elsewhere : (asking own link []).isBssid accessPoint = false := by
    simp [isBssid, asking, parted]
  simp only [removeStation, elsewhere, Bool.and_false]
  rfl

end Negotiation

end TargetWakeTime
