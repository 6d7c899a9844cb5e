import TargetWakeTime.Proofs.Negotiation.Isolation

/-!
Contract: stations that keep a place in the table while they have nothing to keep it for.

Owns:
- idle stations, which are known but have no agreement and negotiate none;
- that an event changes its own station only, and that a request is the only event that an idle
  station does not outlast: once it is taken up, its station is busy or forgotten;
- that a handling leaves no station idle exactly if every idle station had a request queued.

A station gets its place when its first action frame comes in, whatever the frame says, and loses it
at the end of a negotiation. One that never negotiates keeps it.
-/

namespace TargetWakeTime

/-- Whether an event asks for an agreement. -/
def Event.asks (e : Event) : Bool := e.command?.any SetupCommand.isRequest

namespace StationTable

/-- A station is known, but none of its flows has an agreement or negotiates one. -/
def Idles (peer : MacAddress) (t : StationTable) : Prop :=
  ∃ station, t.get? peer = some station ∧ station.isIdle = true

/-- A change that leaves all stations but one alone. -/
structure Confined (peer : MacAddress) (t s : StationTable) : Prop where
  distinct : s.Distinct
  others : ∀ other, other ≠ peer → s.get? other = t.get? other

variable {t s : StationTable} {peer other : MacAddress} {flow : UInt8}

theorem get?_of_mem {station : Station} (distinct : t.Distinct) (member : station ∈ t.stations) :
    t.get? station.address = some station := by
  obtain ⟨capacity, stations⟩ := t
  simp only [Distinct, get?] at distinct member ⊢
  induction stations with
  | nil => cases member
  | cons first rest inductionHypothesis =>
      rw [List.map_cons, List.nodup_cons] at distinct
      rcases List.mem_cons.mp member with rfl | later
      · simp
      · have apart : first.address ≠ station.address := fun same =>
          distinct.1 (same ▸ List.mem_map_of_mem later)
        rw [List.find?_cons_of_neg (by simpa using apart)]
        exact inductionHypothesis distinct.2 later

/-- An idle station is one of the table whose slots are all free. -/
theorem idles_iff (distinct : t.Distinct) :
    t.Idles peer ↔ ∃ station ∈ t.stations, station.address = peer ∧ station.isIdle = true := by
  constructor
  · rintro ⟨station, known, idle⟩
    exact ⟨station, List.mem_of_find?_eq_some known, address_of_get? known, idle⟩
  · rintro ⟨station, member, rfl, idle⟩
    exact ⟨station, get?_of_mem distinct member, idle⟩

theorem not_idles_of_busy? {key : AgreementKey} (busy : t.busy? key ≠ none) :
    ¬ t.Idles key.address := by
  rintro ⟨station, known, idle⟩
  exact busy (busy?_of_isIdle known idle)

theorem busy?_of_slot {key : AgreementKey} {slot : Slot} (found : t.slot? key = some slot)
    (notFree : slot.state ≠ .noAgreement) : t.busy? key ≠ none := by
  rw [busy?_eq_some_iff.mpr ⟨found, notFree⟩]
  exact Option.some_ne_none slot

/-- A station that is made sure of has a slot for each of the eight flows. -/
theorem exists_slot_of_ensure (ensured : t.ensure peer = .ok s) (small : flow.toNat < 8) :
    ∃ slot, s.slot? ⟨peer, flow⟩ = some slot := by
  obtain ⟨station, known⟩ : ∃ station, s.get? peer = some station :=
    ⟨_, by rw [get?_of_ensure ensured, if_pos rfl]⟩
  refine ⟨station.slots[flow.toNat], ?_⟩
  simp [slot?, known, Slots.get?, small]

/-- A busy flow stays busy while its slot is rewritten, if no busy slot is freed. -/
theorem busy?_modifySlot {f : Slot → Slot} (busy : t.busy? ⟨peer, flow⟩ ≠ none)
    (staysBusy : ∀ slot : Slot, slot.state ≠ .noAgreement → (f slot).state ≠ .noAgreement) :
    (t.modifySlots peer (·.modify flow f)).busy? ⟨peer, flow⟩ ≠ none := by
  obtain ⟨slot, held⟩ := Option.ne_none_iff_exists'.mp busy
  obtain ⟨found, notFree⟩ := busy?_eq_some_iff.mp held
  have rewritten : (t.modifySlots peer (·.modify flow f)).slot? ⟨peer, flow⟩ = some (f slot) := by
    rw [slot?_modifySlots, if_pos rfl, found]
    rfl
  exact busy?_of_slot rewritten (staysBusy slot notFree)

namespace Confined

theorem refl (distinct : t.Distinct) : Confined peer t t := ⟨distinct, fun _ _ => rfl⟩

theorem idles_iff (confined : Confined peer t s) (apart : other ≠ peer) :
    s.Idles other ↔ t.Idles other := by
  rw [Idles, confined.others other apart, Idles]

theorem modify {f : Station → Station}
    (keepsAddress : ∀ station, (f station).address = station.address)
    (confined : Confined peer t s) : Confined peer t (s.modify peer f) where
  distinct := distinct_modify keepsAddress confined.distinct
  others other apart := by
    rw [get?_modify keepsAddress, if_neg apart]
    exact confined.others other apart

theorem modifySlots {f : Slots → Slots} (confined : Confined peer t s) :
    Confined peer t (s.modifySlots peer f) :=
  confined.modify fun _ => rfl

theorem remove (confined : Confined peer t s) : Confined peer t (s.remove peer) where
  distinct := distinct_remove confined.distinct
  others other apart := by
    rw [get?_remove confined.distinct, if_neg apart]
    exact confined.others other apart

theorem ensure (ensured : t.ensure peer = .ok s) (distinct : t.Distinct) : Confined peer t s where
  distinct := distinct_of_ensure ensured distinct
  others other apart := by rw [get?_of_ensure ensured, if_neg apart]

end Confined

end StationTable

namespace Negotiation

open StationTable (Confined not_idles_of_busy?)

variable {n m : Negotiation} {t : StationTable} {peer : MacAddress} {flow : UInt8} {event : Event}

/-! ### Ends of a negotiation -/

theorem confined_collectIdle (confined : Confined peer t n.stations) :
    Confined peer t (n.collectIdle peer).stations := by
  unfold collectIdle
  split
  · split
    · exact confined.remove
    · exact confined
  · exact confined

/-- What the collection leaves of a station is not idle. -/
theorem not_idles_collectIdle (distinct : n.stations.Distinct) :
    ¬ (n.collectIdle peer).stations.Idles peer := by
  rintro ⟨station, known, idle⟩
  unfold collectIdle at known
  split at known
  case h_1 held found =>
    split at known
    case isTrue =>
      rw [dropStation, StationTable.get?_remove distinct, if_pos rfl] at known
      cases known
    case isFalse stays =>
      cases found.symm.trans known
      exact stays idle
  case h_2 absent => cases absent.symm.trans known

theorem confined_conclude {conclusion : Conclusion}
    (confined : Confined event.source t n.stations) :
    Confined event.source t (n.conclude event conclusion).stations := by
  unfold conclude
  split
  · exact confined
  · cases conclusion
    case established =>
      cases event.agreement? with
      | none => exact confined.modifySlots
      | some agreement => exact confined.modifySlots.modifySlots
    case cleared => exact confined_collectIdle confined.modifySlots.modifySlots

/-- The end of a negotiation leaves its station with an agreement, or collects it. -/
theorem not_idles_conclude {conclusion : Conclusion} (distinct : n.stations.Distinct)
    (busy : n.stations.busy? event.key ≠ none) :
    ¬ (n.conclude event conclusion).stations.Idles event.source := by
  unfold conclude
  split
  case h_1 => exact not_idles_of_busy? busy
  case h_2 =>
    cases conclusion
    case established =>
      have agreed : (n.setState event.source event.flow .agreement).stations.busy?
          ⟨event.source, event.flow⟩ ≠ none :=
        StationTable.busy?_modifySlot busy fun _ _ => by simp
      cases event.agreement? with
      | none => exact not_idles_of_busy? agreed
      | some agreement =>
          have held : ((n.setState event.source event.flow .agreement).stations.modifySlots
              event.source (·.setAgreement event.flow (some agreement))).busy?
              ⟨event.source, event.flow⟩ ≠ none :=
            StationTable.busy?_modifySlot agreed fun _ notFree => notFree
          exact not_idles_of_busy? held
    case cleared =>
      exact not_idles_collectIdle (StationTable.distinct_modifySlots
        (StationTable.distinct_modifySlots distinct))

/-! ### Answers -/

theorem confined_respond (answer : Event) {conclusion : Option Conclusion}
    (confined : Confined answer.source t n.stations) :
    Confined answer.source t (n.respond answer conclusion).stations := by
  have response := responded answer conclusion n
  generalize n.respond answer conclusion = m at response ⊢
  have left : Confined answer.source t (n.stations.withoutNote answer.source) :=
    confined.modify fun _ => rfl
  cases response with
  | unknown => exact confined
  | waiting => exact confined
  | left => exact left
  | concluded => exact confined_conclude left

/-- An answer for a busy flow leaves its station busy, or collects it. -/
theorem not_idles_respond (answer : Event) {conclusion : Option Conclusion}
    (distinct : n.stations.Distinct) (busy : n.stations.busy? answer.key ≠ none) :
    ¬ (n.respond answer conclusion).stations.Idles answer.source := by
  have response := responded answer conclusion n
  generalize n.respond answer conclusion = m at response ⊢
  have stays : ¬ n.stations.Idles answer.source := not_idles_of_busy? busy
  have stillBusy : (n.stations.withoutNote answer.source).busy? answer.key ≠ none := by
    rwa [StationTable.busy?_of_slot? StationTable.slot?_withoutNote]
  cases response with
  | unknown => exact stays
  | waiting => exact stays
  | left => exact not_idles_of_busy? stillBusy
  | concluded => exact not_idles_conclude (StationTable.distinct_withoutNote distinct) stillBusy

theorem confined_reject {agreement : Agreement} (confined : Confined peer t n.stations) :
    Confined peer t (n.reject peer flow agreement).stations :=
  confined_respond ⟨peer, flow, .setup .reject (agreement.withCommand .reject)⟩ confined

theorem not_idles_reject {agreement : Agreement} (distinct : n.stations.Distinct)
    (busy : n.stations.busy? ⟨peer, flow⟩ ≠ none) :
    ¬ (n.reject peer flow agreement).stations.Idles peer :=
  not_idles_respond ⟨peer, flow, .setup .reject (agreement.withCommand .reject)⟩ distinct busy

theorem confined_accept {command : SetupCommand} {agreement : Agreement}
    (confined : Confined peer t n.stations) :
    Confined peer t (n.accept peer flow command agreement).stations := by
  rw [accept_eq]
  dsimp only
  split
  · exact confined_reject confined
  case h_2 scheduled schedule _ =>
    exact confined_respond ⟨peer, flow, .setup .accept
      (scheduled.withCommand .accept).updateParameters⟩ confined.modifySlots

theorem not_idles_accept {command : SetupCommand} {agreement : Agreement}
    (distinct : n.stations.Distinct) (busy : n.stations.busy? ⟨peer, flow⟩ ≠ none) :
    ¬ (n.accept peer flow command agreement).stations.Idles peer := by
  rw [accept_eq]
  dsimp only
  split
  case h_1 schedule _ => exact not_idles_reject (n := { n with schedule }) distinct busy
  case h_2 scheduled schedule _ =>
    exact not_idles_respond ⟨peer, flow, .setup .accept
        (scheduled.withCommand .accept).updateParameters⟩
      (StationTable.distinct_modifySlots distinct)
      (StationTable.busy?_modifySlot busy fun _ notFree => notFree)

/-! ### Events -/

theorem confined_answerRequest {command : SetupCommand} {agreement : Agreement}
    {state : AgreementState} (confined : Confined peer t n.stations) :
    Confined peer t (n.answerRequest peer flow command agreement state).stations := by
  unfold answerRequest
  split
  case h_1 =>
    unfold consider
    split
    · exact confined
    · cases command
      case request | suggest => exact confined_accept confined.modifySlots
      case demand | grouping => exact confined_reject confined.modifySlots
      all_goals exact confined
  case h_6 =>
    split
    · exact confined
    · exact confined_reject confined
  all_goals exact confined

/-- A request for a flow that has a slot leaves its station busy, or collects it. -/
theorem not_idles_answerRequest {command : SetupCommand} {agreement : Agreement} {slot : Slot}
    (distinct : n.stations.Distinct) (asks : command.isRequest = true)
    (found : n.stations.slot? ⟨peer, flow⟩ = some slot) :
    ¬ (n.answerRequest peer flow command agreement slot.state).stations.Idles peer := by
  have busy (notFree : slot.state ≠ .noAgreement) := StationTable.busy?_of_slot found notFree
  have opened {state : AgreementState} (notFree : state ≠ .noAgreement) :=
    busy?_setState found notFree
  have openedDistinct (state : AgreementState) : (n.setState peer flow state).stations.Distinct :=
    StationTable.distinct_modifySlots distinct
  unfold answerRequest
  split
  case h_1 =>
    simp only [consider, found]
    cases command
    case request | suggest => exact not_idles_accept (openedDistinct _) (opened (by simp))
    case demand | grouping => exact not_idles_reject (openedDistinct _) (opened (by simp))
    all_goals cases asks
  case h_6 inAgreement =>
    split
    · exact not_idles_of_busy? (busy (by simp [inAgreement]))
    · exact not_idles_reject distinct (busy (by simp [inAgreement]))
  case h_2 state | h_3 state | h_4 state | h_5 state =>
    exact not_idles_of_busy? (busy (by simp [state]))

/-- A teardown neither leaves a station idle that was not, nor collects an idle one. -/
theorem idles_handleTeardown (distinct : n.stations.Distinct) :
    (n.handleTeardown event).stations.Idles event.source ↔ n.stations.Idles event.source := by
  unfold handleTeardown
  split
  · rw [show (n.handleOwnTeardown event).stations = n.stations from
      congrArg ResponderPart.stations (responderPart_handleOwnTeardown event n)]
  · split
    · split
      · exact Iff.rfl
      · exact Iff.rfl
      case h_3 state negotiated stands =>
        obtain ⟨slot, found, rfl⟩ := exists_slot_of_stateOf stands negotiated
        have busy : n.stations.busy? event.key ≠ none :=
          StationTable.busy?_of_slot found negotiated
        exact iff_of_false (not_idles_conclude distinct busy)
          (not_idles_of_busy? busy)
    · exact Iff.rfl

theorem confined_handleTeardown (distinct : n.stations.Distinct) :
    Confined event.source n.stations (n.handleTeardown event).stations := by
  unfold handleTeardown
  split
  · rw [show (n.handleOwnTeardown event).stations = n.stations from
      congrArg ResponderPart.stations (responderPart_handleOwnTeardown event n)]
    exact .refl distinct
  · split
    · split
      · exact .refl distinct
      · exact .refl distinct
      · exact confined_conclude (.refl distinct)
    · exact .refl distinct

theorem confined_handleEvent (distinct : n.stations.Distinct) (event : Event) :
    Confined event.source n.stations (n.handleEvent event).1.stations := by
  unfold handleEvent
  split
  · exact confined_handleTeardown distinct
  case h_2 command agreement _ =>
    split
    · split
      · split
        · exact .refl distinct
        case h_2 stations ensured => exact confined_answerRequest (.ensure ensured distinct)
      · exact .refl distinct
    · split
      · rw [show (n.handleAnswer event command).stations = n.stations from
          congrArg ResponderPart.stations (responderPart_handleAnswer event command n)]
        exact .refl distinct
      · exact .refl distinct

/-- Every flow of a frame is one of the eight. -/
theorem flow_lt_of_fromFrame (framed : FromFrame event) : event.flow.toNat < 8 := by
  cases framed with
  | @element source element agreement read => exact agreement.flow_lt
  | teardown source flow =>
      show (UInt8.ofNat (flow.toNat % 8)).toNat < 8
      rw [UInt8.toNat_ofNat']
      omega

theorem asks_of_body {command : SetupCommand} {agreement : Agreement}
    (body : event.body = .setup command agreement) : event.asks = command.isRequest := by
  rw [Event.asks, Event.command?, body, Option.any_some]

theorem handleEvent_of_answer {command : SetupCommand} {agreement : Agreement}
    (body : event.body = .setup command agreement) (answers : command.isRequest = false)
    (n : Negotiation) :
    n.handleEvent event = (if n.requester then n.handleAnswer event command else n, false) := by
  simp only [handleEvent, body, answers, Bool.false_eq_true, if_false]
  split <;> rfl

theorem handleEvent_of_teardown (body : event.body = .teardown) (n : Negotiation) :
    n.handleEvent event = (n.handleTeardown event, false) := by
  rw [handleEvent, body]

/-- What an event does about the idleness of its own station: a request ends it, and everything
else leaves it as it is. -/
theorem idles_handleEvent (distinct : n.stations.Distinct) (responds : n.responder = true)
    (framed : FromFrame event) :
    (n.handleEvent event).1.stations.Idles event.source ↔
      n.stations.Idles event.source ∧ event.asks = false := by
  cases body : event.body with
  | teardown =>
      have silent : event.asks = false := by simp [Event.asks, Event.command?, body]
      simp only [handleEvent, body, silent, and_true]
      exact idles_handleTeardown distinct
  | setup command agreement =>
      rw [asks_of_body body]
      cases asks : command.isRequest with
      | false =>
          simp only [handleEvent, body, asks, and_true]
          split
          · exact absurd ‹_› Bool.false_ne_true
          · split
            · rw [show (n.handleAnswer event command).stations = n.stations from
                congrArg ResponderPart.stations (responderPart_handleAnswer event command n)]
            · exact Iff.rfl
      | true =>
          refine iff_of_false ?_ (by simp)
          simp only [handleEvent, body, asks, responds, if_true]
          split
          case h_1 error full =>
            rintro ⟨station, known, -⟩
            simp [StationTable.ensure, StationTable.contains, known] at full
          case h_2 stations ensured =>
            obtain ⟨slot, found⟩ :=
              StationTable.exists_slot_of_ensure ensured (flow_lt_of_fromFrame framed)
            rw [stateOf_of_slot? (n := { n with stations, responder := true }) found]
            exact not_idles_answerRequest (StationTable.distinct_of_ensure ensured distinct) asks
              found

/-! ### Handlings -/

/-- A batch of events ends the idleness of the stations that it brings a request from, and leaves
all others as they are. -/
theorem idles_handleAll {events : List Event} (distinct : n.stations.Distinct)
    (responds : n.responder = true) (framed : ∀ event ∈ events, FromFrame event) :
    (handleAll events n).1.stations.Idles peer ↔
      n.stations.Idles peer ∧ ∀ event ∈ events, event.source = peer → event.asks = false := by
  induction events generalizing n with
  | nil => simp [handleAll]
  | cons event rest inductionHypothesis =>
      have confined := confined_handleEvent distinct event
      have stillResponds : (n.handleEvent event).1.responder = true :=
        (congrArg Surroundings.responder (surroundings_handleEvent event n)).trans responds
      have afterwards := inductionHypothesis confined.distinct stillResponds
        fun later member => framed later (List.mem_cons_of_mem _ member)
      rw [handleAll, afterwards, List.forall_mem_cons]
      by_cases own : event.source = peer
      · subst own
        rw [idles_handleEvent distinct responds (framed event List.mem_cons_self)]
        simp only [forall_const, and_assoc]
      · rw [confined.idles_iff (Ne.symm own)]
        simp only [own, false_imp_iff, true_and]

theorem idles_handleEvents (distinct : n.stations.Distinct) (responds : n.responder = true)
    (framed : ∀ event ∈ n.events.toList, FromFrame event) (source : Option MacAddress) :
    (n.handleEvents source).stations.Idles peer ↔
      n.stations.Idles peer ∧ ∀ event ∈ n.due source, event.source = peer → event.asks = false := by
  obtain ⟨events, tasks, handled⟩ := handleEvents_eq source n
  rw [handled]
  exact idles_handleAll distinct responds fun event isDue =>
    framed event (List.mem_filter.mp isDue).1

/-! ### Runs -/

theorem responder_takeAnswer (peer : MacAddress) (n : Negotiation) :
    (n.takeAnswer peer).2.responder = n.responder :=
  congrArg Surroundings.responder (surroundings_takeAnswer peer n)

/-- An interface that answers requests always does. -/
theorem responder_apply (n : Negotiation) (operation : Operation) :
    (operation.apply n).responder = n.responder := by
  cases operation
  case receiveElement source element =>
    have received := elementReceived source element n
    rw [Operation.apply]
    generalize n.receiveElement source element = result at received ⊢
    cases received <;> rfl
  case receiveSetup source token element =>
    have received := setupReceived source token element n
    rw [Operation.apply]
    generalize n.receiveSetup source token element = result at received ⊢
    cases received <;> rfl
  case receiveTeardown source flow =>
    have received := teardownReceived source flow n
    rw [Operation.apply]
    generalize n.receiveTeardown source flow = result at received ⊢
    cases received <;> rfl
  case handleEvents source =>
    obtain ⟨events, tasks, handled⟩ := handleEvents_eq source n
    rw [Operation.apply, handled]
    exact congrArg Surroundings.responder (surroundings_handleAll _ _)
  case takeAnswer peer => exact responder_takeAnswer peer n
  case takeResponseElement peer =>
    rw [Operation.apply, takeResponseElement_snd]
    exact responder_takeAnswer peer n
  case removeStation peer =>
    have removed := stationRemoved peer n
    rw [Operation.apply]
    generalize n.removeStation peer = result at removed ⊢
    cases removed <;> rfl
  case sendRequest agreement command =>
    rw [Operation.apply]
    unfold sendRequest
    split
    · rfl
    · split
      · rfl
      · dsimp only
        split <;> rfl
  case associationRequestElement =>
    rw [Operation.apply]
    unfold associationRequestElement
    split
    · split <;> rfl
    · rfl
  case beginTeardown flow =>
    rw [Operation.apply]
    unfold beginTeardown
    split
    · rfl
    · split
      · rfl
      · dsimp only
        split <;> rfl
  case authorized =>
    rw [Operation.apply]
    unfold authorized
    split <;> rfl
  all_goals rfl

theorem responder_reached {settings : Settings} {operations : List Operation}
    (responds : settings.responder = true) :
    ∀ n ∈ reached (new settings) operations, n.responder = true :=
  invariant_of_apply (·.responder = true)
    (fun n operation responds => (responder_apply n operation).trans responds) responds

/-- Every station of the table has an agreement or negotiates one. -/
def NoneIdle (n : Negotiation) : Prop :=
  ∀ station ∈ n.stations.stations, station.isIdle = false

/-- Every idle station has a request queued. -/
def IdleAsk (n : Negotiation) : Prop :=
  ∀ station ∈ n.stations.stations, station.isIdle = true →
    ∃ event ∈ n.events.toList, event.source = station.address ∧ event.asks = true

theorem noneIdle_iff (distinct : n.stations.Distinct) :
    n.NoneIdle ↔ ∀ peer, ¬ n.stations.Idles peer := by
  simp only [NoneIdle, StationTable.idles_iff distinct]
  constructor
  · rintro busy peer ⟨station, member, -, idle⟩
    rw [busy station member] at idle
    cases idle
  · intro busy station member
    rw [Bool.eq_false_iff]
    exact fun idle => busy station.address ⟨station, member, rfl, idle⟩

/-- What holds all along the run of an interface that answers requests. -/
structure Attentive (n : Negotiation) : Prop where
  responds : n.responder = true
  orderly : n.Orderly
  framed : ∀ event ∈ n.events.toList, FromFrame event

theorem attentive_apply {operation : Operation} (attentive : n.Attentive)
    (fromFrames : operation.fromFrames = true) : (operation.apply n).Attentive where
  responds := (responder_apply n operation).trans attentive.responds
  orderly := orderly_apply attentive.orderly operation
  framed := fromFrame_apply attentive.framed fromFrames

theorem noneIdle_handleEvents_iff (attentive : n.Attentive) :
    (n.handleEvents none).NoneIdle ↔ n.IdleAsk := by
  have allDue : n.due none = n.events.toList := List.filter_eq_self.mpr fun _ _ => rfl
  have after (peer : MacAddress) : (n.handleEvents none).stations.Idles peer ↔ _ :=
    idles_handleEvents attentive.orderly.distinct attentive.responds attentive.framed none
  rw [noneIdle_iff (orderly_handleEvents attentive.orderly none).distinct]
  simp only [after, allDue, IdleAsk]
  constructor
  · intro ended station member idle
    have known : n.stations.Idles station.address :=
      ⟨station, StationTable.get?_of_mem attentive.orderly.distinct member, idle⟩
    apply Classical.byContradiction
    intro unasked
    refine ended station.address ⟨known, fun event queued own => ?_⟩
    rw [Bool.eq_false_iff]
    exact fun asks => unasked ⟨event, queued, own, asks⟩
  · rintro asked peer ⟨idles, silent⟩
    obtain ⟨station, member, rfl, idle⟩ :=
      (StationTable.idles_iff attentive.orderly.distinct).mp idles
    obtain ⟨event, queued, own, asks⟩ := asked station member idle
    rw [silent event queued own] at asks
    cases asks

/-- All along a run whose events come from frames, a handling of all events leaves every station with
an agreement or a negotiation exactly if every station that had neither had a request queued. -/
theorem noneIdle_iff_idleAsk (settings : Settings) (operations : List Operation)
    (responds : settings.responder = true)
    (framed : ∀ operation ∈ operations, operation.fromFrames = true) :
    ∀ step ∈ steps (new settings) operations, step.2 = .handleEvents none →
      ((step.2.apply step.1).NoneIdle ↔ step.1.IdleAsk) := by
  intro step member handles
  have start : (new settings).Attentive :=
    ⟨responds, orderly_new settings, fun event queued => by cases queued⟩
  have attentive : step.1.Attentive :=
    Runs.invariant_of_steps Attentive (fun _ _ => attentive_apply) start
      (fun other taken => framed other.2 (Runs.mem_of_mem_steps taken).2) step.1
      (Runs.mem_of_mem_steps member).1
  rw [handles]
  exact noneIdle_handleEvents_iff attentive

/-- Two stations ask for all of the same interval, so that only one of them finds a place. -/
def rivals : List Operation :=
  [.receiveSetup ⟨2, 0, 0, 0, 0, 1⟩ 1 (requestElement 0 4 1024),
    .receiveSetup ⟨2, 0, 0, 0, 0, 2⟩ 1 (requestElement 0 4 1024)]

/-- Both have asked, so that neither stays without an agreement: the second one is forgotten. -/
theorem noneIdle_iff_idleAsk_rivals :
    (run (new .accessPoint) rivals).IdleAsk ∧
      ((run (new .accessPoint) rivals).handleEvents none).NoneIdle := by
  have asked : (run (new .accessPoint) rivals).IdleAsk := by
    unfold IdleAsk
    decide +kernel
  refine ⟨asked, ?_⟩
  exact (noneIdle_iff_idleAsk .accessPoint (rivals ++ [.handleEvents none]) rfl (by decide)
    (run (new .accessPoint) rivals, .handleEvents none)
    (List.mem_cons_of_mem _ (List.mem_cons_of_mem _ List.mem_cons_self)) rfl).mpr asked

/-- A station's first action frame carries an acceptance that nobody asked for. -/
def unaskedAcceptance : List Operation :=
  let parameters : Parameters :=
    { Parameters.zero with
      requestType := { RequestType.zero with implicit := true }
      minimumDuration := 1
      mantissa := 1024 }
  let acceptance := Agreement.ofParameters .zero (parameters.withCommand .accept)
  [.receiveSetup ⟨2, 0, 0, 0, 0, 1⟩ 1 acceptance.element, .handleEvents none]

/-- The acceptance is dropped, and its station stays in the table. -/
theorem not_noneIdle_unaskedAcceptance :
    ¬ (run (new .accessPoint) unaskedAcceptance).NoneIdle ∧
      (run (new .accessPoint) unaskedAcceptance).events.isEmpty = true := by
  unfold NoneIdle
  decide +kernel

end Negotiation

end TargetWakeTime
