import TargetWakeTime.Proofs.Negotiation.Surroundings

/-!
Contract: what each operation does to the own flows.

Owns:
- the ways in which an event, and an operation, changes the own flows, with what was found before;
- that answering requests leaves the own flows alone;
- which operations change what is installed, and that all else keeps or forgets it;
- that frames have brought everything which waits to be carried out on the chip.

Invariants about the own flows are proved from these cases, so that no other module opens the
operations for them.
-/

namespace TargetWakeTime

/-! ### Reading the own flows -/

namespace Requester

variable {r : Requester} {flow other : UInt8}

theorem slot?_setState {state : AgreementState} :
    (r.setState flow state).slots.get? other =
      if other = flow then (r.slots.get? flow).map ({ · with state }) else r.slots.get? other :=
  Slots.get?_modify flow other _ r.slots

theorem slot?_setAgreement {agreement : Option Agreement} :
    (r.setAgreement flow agreement).slots.get? other =
      if other = flow then (r.slots.get? flow).map ({ · with agreement })
      else r.slots.get? other :=
  Slots.get?_modify flow other _ r.slots

theorem state_setAgreement {agreement : Option Agreement} :
    (r.setAgreement flow agreement).state other = r.state other := by
  simp only [state, Slots.state, slot?_setAgreement]
  split
  case isTrue same =>
    rw [same]
    cases r.slots.get? flow <;> rfl
  case isFalse => rfl

/-- A flow whose negotiation is over is not under consideration. -/
theorem isConsidering_setState {state : AgreementState} (ended : state.isConsidering = false) :
    ((r.setState flow state).state flow).isConsidering = false := by
  simp only [Requester.state, Slots.state, slot?_setState, if_true]
  cases r.slots.get? flow with
  | none => rfl
  | some slot => exact ended

theorem flowIndex_eq_iff (small : flow.toNat < 8) (otherSmall : other.toNat < 8) :
    flowIndex other = flowIndex flow ↔ other = flow := by
  rw [flowIndex, flowIndex, Fin.ext_iff, Bit.val_lowThree, Bit.val_lowThree,
    Nat.mod_eq_of_lt small, Nat.mod_eq_of_lt otherSmall, UInt8.toNat_inj]

theorem isInstalled_setInstalled {value : Bool} (small : flow.toNat < 8)
    (otherSmall : other.toNat < 8) :
    (r.setInstalled flow value).isInstalled other =
      if other = flow then value else r.isInstalled other := by
  have sameIndex := flowIndex_eq_iff small otherSmall
  by_cases same : other = flow
  · rw [if_pos same]
    simp [isInstalled, setInstalled, same]
  · have apart : ¬ flowIndex flow = flowIndex other := fun equal => same (sameIndex.mp equal.symm)
    rw [if_neg same]
    simp [isInstalled, setInstalled, Fin.val_inj, apart]

/-- Nothing is known of a flow any more, except whether the chip runs it. -/
def withoutSlot (flow : UInt8) (r : Requester) : Requester :=
  (r.setState flow .noAgreement).setAgreement flow none

end Requester

namespace Negotiation

variable {n m : Negotiation} {event : Event}

/-! ### Answering -/

@[simp] theorem own_collectIdle (peer : MacAddress) (n : Negotiation) :
    (n.collectIdle peer).own = n.own := by
  unfold collectIdle
  split
  · split <;> rfl
  · rfl

@[simp] theorem own_conclude (event : Event) (conclusion : Conclusion) (n : Negotiation) :
    (n.conclude event conclusion).own = n.own := by
  unfold conclude
  split
  · rfl
  · cases conclusion
    case established => cases event.agreement? <;> rfl
    case cleared => exact own_collectIdle _ _

@[simp] theorem own_respond (answer : Event) (conclusion : Option Conclusion) (n : Negotiation) :
    (n.respond answer conclusion).own = n.own := by
  have response := responded answer conclusion n
  generalize n.respond answer conclusion = m at response ⊢
  cases response with
  | unknown => rfl
  | waiting => rfl
  | left => rfl
  | concluded => exact own_conclude ..

@[simp] theorem own_reject (peer : MacAddress) (flow : UInt8) (agreement : Agreement)
    (n : Negotiation) : (n.reject peer flow agreement).own = n.own :=
  own_respond ..

@[simp] theorem own_accept (peer : MacAddress) (flow : UInt8) (command : SetupCommand)
    (agreement : Agreement) (n : Negotiation) :
    (n.accept peer flow command agreement).own = n.own := by
  rw [accept_eq]
  dsimp only
  split
  · exact own_reject ..
  · exact own_respond ..

@[simp] theorem own_answerRequest (peer : MacAddress) (flow : UInt8) (command : SetupCommand)
    (agreement : Agreement) (state : AgreementState) (n : Negotiation) :
    (n.answerRequest peer flow command agreement state).own = n.own := by
  unfold answerRequest
  split
  case h_1 =>
    unfold consider
    split
    · rfl
    · cases command
      case request | suggest => exact own_accept ..
      case demand | grouping => exact own_reject ..
      all_goals rfl
  case h_6 =>
    split
    · rfl
    · exact own_reject ..
  all_goals rfl

theorem own_deferCommands (n : Negotiation) : n.deferCommands.own = n.own := by
  unfold deferCommands
  split <;> rfl

theorem own_takeAnswer (peer : MacAddress) (n : Negotiation) :
    (n.takeAnswer peer).2.own = n.own := by
  have taken := answerTaken peer n
  generalize n.takeAnswer peer = result at taken ⊢
  cases taken with
  | nothing => rfl
  | established => exact own_conclude ..
  | cleared => exact own_conclude ..
  | kept => rfl
  | refused => rfl

/-! ### Taking up events -/

/-- The ways in which an event changes the own flows. -/
inductive OwnHandled (event : Event) (n m : Negotiation) : Prop where
  | kept (same : m.own = n.own)
  | accepted {agreement : Agreement} (accepts : event.body = .setup .accept agreement)
      (considering : (n.own.state event.flow).isConsidering = true)
      (own : m.own = ((n.own.setState event.flow .agreement).setAgreement event.flow
        (some agreement)).pushCommand event)
  | refused (considering : (n.own.state event.flow).isConsidering = true)
      (own : m.own = n.own.setState event.flow .noAgreement)
  | torn (tears : event.body = .teardown)
      (own : m.own = ((n.own.setState event.flow .noAgreement).setAgreement event.flow
        none).pushCommand event)

theorem ownHandled_handleTeardown (tears : event.body = .teardown) (n : Negotiation) :
    OwnHandled event n (n.handleTeardown event) := by
  unfold handleTeardown
  split
  · unfold handleOwnTeardown
    dsimp only
    split
    · exact .kept rfl
    · exact .torn tears (own_deferCommands _)
  · split
    · split
      · exact .kept rfl
      · exact .kept rfl
      · exact .kept (own_conclude ..)
    · exact .kept rfl

theorem ownHandled_handleAnswer {command : SetupCommand} {agreement : Agreement}
    (body : event.body = .setup command agreement) (n : Negotiation) :
    OwnHandled event n (n.handleAnswer event command) := by
  have carried : event.agreement? = some agreement := by rw [Event.agreement?, body]
  unfold handleAnswer
  dsimp only
  split
  case isTrue considering =>
    cases command
    case accept =>
      refine .accepted body considering ?_
      rw [← carried]
      exact own_deferCommands _
    case reject | alternate | dictate => exact .refused considering rfl
    all_goals exact .kept rfl
  case isFalse => exact .kept rfl

theorem ownHandled (event : Event) (n : Negotiation) : OwnHandled event n (n.handleEvent event).1 := by
  unfold handleEvent
  split
  case h_1 tears => exact ownHandled_handleTeardown tears n
  case h_2 command agreement body =>
    split
    · split
      · split
        · exact .kept rfl
        · exact .kept (own_answerRequest ..)
      · exact .kept rfl
    · split
      · exact ownHandled_handleAnswer body n
      · exact .kept rfl

/-- What every event of a batch keeps about the own flows, the batch keeps. -/
theorem own_handleAll (property : Requester → Prop) {events : List Event}
    (kept : ∀ event ∈ events, ∀ before after : Negotiation,
      OwnHandled event before after → property before.own → property after.own)
    (holds : property n.own) : property (handleAll events n).1.own :=
  holds_handleAll (fun n => property n.own)
    (fun event member n => kept event member n _ (ownHandled event n)) holds

theorem own_handleEvents (property : Requester → Prop) {source : Option MacAddress}
    (kept : ∀ event ∈ n.due source, ∀ before after : Negotiation,
      OwnHandled event before after → property before.own → property after.own)
    (holds : property n.own) : property (n.handleEvents source).own := by
  obtain ⟨events, tasks, handled⟩ := handleEvents_eq source n
  rw [handled]
  exact own_handleAll property (n := n.opened source) kept holds

/-! ### All operations -/

/-- The flow that an operation asks the access point for, now or at the next association. -/
def Operation.asks? (n : Negotiation) : Operation → Option UInt8
  | sendRequest agreement command =>
      if n.requester && command.isRequest then some agreement.flow else none
  | associationRequestElement =>
      match n.own.stored with
      | some { flow, body := .setup .., .. } => if n.requester then some flow else none
      | _ => none
  | _ => none

/-- A flow that is asked for is under consideration. -/
theorem slots_of_asks {operation : Operation} {flow : UInt8}
    (asks : operation.asks? n = some flow) :
    ∃ command, (operation.apply n).own.slots = n.own.slots.setState flow (considering command) := by
  cases operation
  case sendRequest agreement command =>
    rw [Operation.asks?] at asks
    split at asks
    case isFalse => cases asks
    case isTrue asker =>
      obtain ⟨requester, request⟩ := Bool.and_eq_true_iff.mp asker
      cases asks
      refine ⟨command, ?_⟩
      simp only [Operation.apply, sendRequest, requester, request, Bool.not_true, Bool.false_eq_true,
        if_false]
      split <;> rfl
  case associationRequestElement =>
    rw [Operation.asks?] at asks
    split at asks
    case h_1 source stored command agreement found =>
      split at asks
      case isFalse => cases asks
      case isTrue asker =>
        cases asks
        exact ⟨command, by simp [Operation.apply, associationRequestElement, found, asker]; rfl⟩
    case h_2 => cases asks
  all_goals cases asks

/-- The ways in which an operation changes the own flows. -/
inductive OwnApplied (n : Negotiation) : Operation → Negotiation → Prop where
  | kept {operation : Operation} {m : Negotiation} (same : m.own = n.own) : OwnApplied n operation m
  | asked {operation : Operation} {m : Negotiation} {flow : UInt8} {command : SetupCommand}
      (asks : operation.asks? n = some flow)
      (slots : m.own.slots = n.own.slots.setState flow (considering command))
      (installed : m.own.installed = n.own.installed) (commands : m.own.commands = n.own.commands) :
      OwnApplied n operation m
  | handled (source : Option MacAddress) :
      OwnApplied n (.handleEvents source) (n.handleEvents source)
  | ended {flow : UInt8} {m : Negotiation}
      (own : m.own = (n.own.setState flow .noAgreement).setAgreement flow none) :
      OwnApplied n (.beginTeardown flow) m
  | queued (destination : MacAddress) (flow : UInt8) :
      OwnApplied n (.teardownSent destination flow) (n.teardownSent destination flow)
  | taken : OwnApplied n .takeCommands n.takeCommands.2
  | forced (agreement : Agreement) :
      OwnApplied n (.forceInstalled agreement) (n.forceInstalled agreement)
  | installed (flow : UInt8) : OwnApplied n (.commitInstall flow) (n.commitInstall flow)
  | uninstalled (flow : UInt8) : OwnApplied n (.commitUninstall flow) (n.commitUninstall flow)
  | reset {peer : MacAddress} {m : Negotiation} (leaves : n.requester = true ∧ n.isBssid peer = true)
      (own : m.own = n.own.reset (some peer)) : OwnApplied n (.removeStation peer) m
  | cleared : OwnApplied n .clear n.clear

theorem ownApplied_sendRequest (agreement : Agreement) (command : SetupCommand)
    (n : Negotiation) :
    OwnApplied n (.sendRequest agreement command) (n.sendRequest agreement command).2 := by
  have sameFlow : (agreement.withCommand command).flow = agreement.flow := rfl
  unfold sendRequest
  split
  case isTrue => exact .kept rfl
  case isFalse asker =>
    split
    case isTrue => exact .kept rfl
    case isFalse request =>
      have asks : (Operation.sendRequest agreement command).asks? n = some agreement.flow := by
        rw [Bool.not_eq_true, Bool.not_eq_false'] at asker request
        rw [Operation.asks?, asker, request]
        rfl
      dsimp only
      split
      · exact .asked asks rfl rfl rfl
      · exact .asked asks rfl rfl rfl

theorem ownApplied_associationRequestElement (n : Negotiation) :
    OwnApplied n .associationRequestElement n.associationRequestElement.2 := by
  unfold associationRequestElement
  split
  case isTrue asker =>
    split
    case h_1 source flow command agreement stored =>
      exact .asked (by simp [Operation.asks?, stored, asker]) rfl rfl rfl
    · exact .kept rfl
    · exact .kept rfl
  case isFalse => exact .kept rfl

/-- The ways in which a teardown begins. -/
inductive TeardownBegun (flow : UInt8) (n : Negotiation) : Except Error Bool × Negotiation → Prop where
  | refused (error : Error) (idle : ¬ (flow.toNat < 8 ∧ n.own.isInstalled flow = true)) :
      TeardownBegun flow n (.error error, n)
  | announced {bssid : MacAddress} (link : n.link.accessPoint? = some bssid) :
      TeardownBegun flow n
        (.ok false, (n.withOwn (·.withoutSlot flow)).defer (.sendTeardown bssid flow))
  | unannounced (active : flow.toNat < 8 ∧ n.own.isInstalled flow = true)
      (link : n.link.accessPoint? = none) :
      TeardownBegun flow n (.ok true, n.withOwn (·.withoutSlot flow))

theorem teardownBegun (flow : UInt8) (n : Negotiation) :
    TeardownBegun flow n (n.beginTeardown flow) := by
  unfold beginTeardown
  split
  case isTrue large => exact .refused _ fun active => not_seven_lt_iff.mpr active.1 large
  case isFalse small =>
    cases installed : n.own.isInstalled flow with
    | false => exact .refused _ fun active => Bool.noConfusion (installed.symm.trans active.2)
    | true =>
        cases link : n.link.accessPoint? with
        | some bssid =>
            simp only [withOwn, link]
            exact .announced link
        | none =>
            simp only [withOwn, link]
            exact .unannounced ⟨not_seven_lt_iff.mp small, installed⟩ link

theorem ownApplied_beginTeardown (flow : UInt8) (n : Negotiation) :
    OwnApplied n (.beginTeardown flow) (n.beginTeardown flow).2 := by
  have begun := teardownBegun flow n
  generalize n.beginTeardown flow = result at begun ⊢
  cases begun with
  | refused => exact .kept rfl
  | announced | unannounced => exact .ended rfl

theorem ownApplied_removeStation (peer : MacAddress) (n : Negotiation) :
    OwnApplied n (.removeStation peer) (n.removeStation peer).2 := by
  unfold removeStation
  by_cases leaves : (n.requester && n.isBssid peer) = true
  · rw [if_pos leaves]
    have both : n.requester = true ∧ n.isBssid peer = true := by simpa using leaves
    dsimp only
    split
    · exact .reset both rfl
    · exact .reset both rfl
  · rw [if_neg leaves]
    dsimp only
    split
    · exact .kept rfl
    · exact .kept rfl

theorem ownApplied (n : Negotiation) (operation : Operation) :
    OwnApplied n operation (operation.apply n) := by
  cases operation
  case receiveElement source element =>
    have received := elementReceived source element n
    rw [Operation.apply]
    generalize n.receiveElement source element = result at received ⊢
    cases received <;> exact .kept rfl
  case receiveSetup source token element =>
    have received := setupReceived source token element n
    rw [Operation.apply]
    generalize n.receiveSetup source token element = result at received ⊢
    cases received <;> exact .kept rfl
  case receiveTeardown source flow =>
    have received := teardownReceived source flow n
    rw [Operation.apply]
    generalize n.receiveTeardown source flow = result at received ⊢
    cases received <;> exact .kept rfl
  case handleEvents source => exact .handled source
  case takeAnswer peer => exact .kept (own_takeAnswer peer n)
  case takeResponseElement peer =>
    rw [Operation.apply, takeResponseElement_snd]
    exact .kept (own_takeAnswer peer n)
  case removeStation peer => exact ownApplied_removeStation peer n
  case clear => exact .cleared
  case sendRequest agreement command => exact ownApplied_sendRequest agreement command n
  case associationRequestElement => exact ownApplied_associationRequestElement n
  case beginTeardown flow => exact ownApplied_beginTeardown flow n
  case teardownSent destination flow => exact .queued destination flow
  case authorized =>
    rw [Operation.apply]
    unfold authorized
    split <;> exact .kept rfl
  case takeCommands => exact .taken
  case forceInstalled agreement => exact .forced agreement
  case commitInstall flow => exact .installed flow
  case commitUninstall flow => exact .uninstalled flow
  all_goals exact .kept rfl

/-! ### What is installed -/

/-- Whether an operation notes that the chip runs a flow, or no longer does. -/
def Operation.notes : Operation → Bool
  | forceInstalled _ | commitInstall _ | commitUninstall _ => true
  | _ => false

/-- Whether an operation forgets what is installed: this interface leaves its access point, or is
cleared. -/
def Operation.forgets (n : Negotiation) : Operation → Bool
  | removeStation peer => n.requester && n.isBssid peer
  | clear => true
  | _ => false

/-- All operations that neither note nor forget leave what is installed alone. -/
theorem installed_apply {operation : Operation} (silent : operation.notes = false)
    (keeps : operation.forgets n = false) :
    (operation.apply n).own.installed = n.own.installed := by
  have result := ownApplied n operation
  generalize operation.apply n = m at result
  cases result with
  | kept same => rw [same]
  | asked _ _ same => exact same
  | handled source =>
      refine own_handleEvents (fun own => own.installed = n.own.installed)
        (fun event _ before after handled kept => ?_) rfl
      cases handled with
      | kept same => rwa [same]
      | accepted _ _ own | refused _ own | torn _ own => rwa [own]
  | ended own => rw [own]; rfl
  | queued | taken => rfl
  | forced | installed | uninstalled => cases silent
  | reset leaves =>
      rw [Operation.forgets, leaves.1, leaves.2] at keeps
      cases keeps
  | cleared => cases keeps

/-- An operation that forgets what is installed leaves nothing installed. -/
theorem isInstalled_of_forgets {operation : Operation} (forgets : operation.forgets n = true)
    (flow : UInt8) : (operation.apply n).own.isInstalled flow = false := by
  have forgotten (peer : Option MacAddress) : (n.own.reset peer).isInstalled flow = false := by
    simp [Requester.reset, Requester.isInstalled]
  cases operation
  case removeStation peer =>
    rw [Operation.apply, removeStation, if_pos (show (n.requester && n.isBssid peer) = true from forgets)]
    dsimp only
    split
    · exact forgotten (some peer)
    · exact forgotten (some peer)
  case clear => exact forgotten none
  all_goals cases forgets

/-- Nothing but a note makes a flow installed. -/
theorem isInstalled_of_apply {operation : Operation} {flow : UInt8}
    (silent : operation.notes = false)
    (installed : (operation.apply n).own.isInstalled flow = true) :
    n.own.isInstalled flow = true := by
  by_cases forgets : operation.forgets n = true
  · rw [isInstalled_of_forgets forgets] at installed
    cases installed
  · have same := installed_apply silent (Bool.not_eq_true _ ▸ forgets)
    rwa [Requester.isInstalled, same] at installed

/-- Every event that is queued, or that waits to be carried out on the chip, is one that a frame can
have brought. -/
structure Framed (n : Negotiation) : Prop where
  events : ∀ event ∈ n.events.toList, FromFrame event
  commands : ∀ event ∈ n.own.commands.toList, FromFrame event

theorem framed_apply {operation : Operation} (framed : n.Framed)
    (fromFrames : operation.fromFrames = true) : (operation.apply n).Framed where
  events := fromFrame_apply framed.events fromFrames
  commands := by
    have result := ownApplied n operation
    generalize operation.apply n = m at result
    cases result with
    | kept same =>
        rw [same]
        exact framed.commands
    | asked _ _ _ same =>
        rw [same]
        exact framed.commands
    | handled source =>
        refine own_handleEvents (fun own => ∀ event ∈ own.commands.toList, FromFrame event)
          (fun event isDue before after handled earlier => ?_) framed.commands
        have pushed : ∀ other ∈ before.own.commands.toList ++ [event], FromFrame other := by
          intro other member
          rcases List.mem_append.mp member with old | new
          · exact earlier other old
          · rw [List.mem_singleton.mp new]
            exact framed.events event (List.mem_filter.mp isDue).1
        cases handled with
        | kept same =>
            rw [same]
            exact earlier
        | refused _ own =>
            rw [own]
            exact earlier
        | accepted _ _ own | torn _ own =>
            rw [own]
            exact pushed
    | ended own =>
        rw [own]
        exact framed.commands
    | queued destination flow =>
        intro event member
        rcases List.mem_append.mp member with old | new
        · exact framed.commands event old
        · rw [List.mem_singleton.mp new]
          exact .teardown destination flow
    | taken => exact fun event member => by cases member
    | forced | installed | uninstalled => exact framed.commands
    | reset _ own =>
        rw [own]
        exact fun event member => framed.commands event (List.mem_filter.mp member).1
    | cleared => exact fun event member => framed.commands event (List.mem_filter.mp member).1

end Negotiation

end TargetWakeTime
