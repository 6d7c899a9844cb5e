import TargetWakeTime.Proofs.Negotiation.Outcome
import TargetWakeTime.Proofs.Schedule.Membership

/-!
Contract: of what kind the agreements are that a responder has granted.

Owns the states in which all agreements that flows hold, and all that waiting acceptances carry, are
of one kind, and what everything that can be done to a negotiation state makes of them. Nothing comes
into a slot or into an acceptance that the schedule has not given a place; so only events that ask
for agreements can bring in another kind, and only that which scheduling gives.

What is new may be of a wider kind than what was held before: this is how kinds that depend on the
course of a run are followed.
-/

namespace TargetWakeTime.Negotiation

/-- What flows hold and what waiting acceptances carry is all of one kind. -/
structure HoldsOnly (kind : Agreement → Prop) (n : Negotiation) : Prop where
  distinct : n.stations.Distinct
  held : ∀ key a, n.stations.agreement? key = some a → kind a
  accepted : ∀ answer ∈ n.answers.toList, ∀ a, answer.body = .setup .accept a → kind a

/-- What the schedule gives a place for this agreement is granted as of the new kind, wherever all
that is held is of the old one. -/
def GrantedAs (old new : Agreement → Prop) (a : Agreement) : Prop :=
  ∀ (n : Negotiation) (key : AgreementKey) (command : SetupCommand) (scheduled : Agreement)
    (after : Schedule), n.HoldsOnly old → command ≠ .demand →
    n.schedule.schedule key a command n.stations.servicePeriod? = (.ok scheduled, after) →
    new (scheduled.withCommand .accept).updateParameters

variable {n m : Negotiation} {peer : MacAddress} {flow : UInt8} {event : Event}
  {kind old new : Agreement → Prop}

theorem holdsOnly_new (kind : Agreement → Prop) (settings : Settings) :
    (Negotiation.new settings).HoldsOnly kind where
  distinct := List.Pairwise.nil
  held _ _ holds := by cases holds
  accepted _ member := by cases member

theorem HoldsOnly.mono (holds : n.HoldsOnly old) (wider : ∀ a, old a → new a) :
    n.HoldsOnly new where
  distinct := holds.distinct
  held key a held := wider a (holds.held key a held)
  accepted answer member a accepts := wider a (holds.accepted answer member a accepts)

/-- A change by which no flow and no waiting answer gets anything new. -/
theorem HoldsOnly.of_fewer (holds : n.HoldsOnly kind) (distinct : m.stations.Distinct)
    (held : ∀ key a, m.stations.agreement? key = some a → n.stations.agreement? key = some a)
    (answers : ∀ answer ∈ m.answers.toList, answer ∈ n.answers.toList) : m.HoldsOnly kind where
  distinct := distinct
  held key a found := holds.held key a (held key a found)
  accepted answer member := holds.accepted answer (answers answer member)

theorem HoldsOnly.setAgreement {a : Agreement} (holds : n.HoldsOnly kind) (fits : kind a) :
    HoldsOnly kind { n with
      stations := n.stations.modifySlots peer (·.setAgreement flow (some a)) } where
  distinct := StationTable.distinct_modifySlots holds.distinct
  held key other found := by
    rw [StationTable.agreement?_setAgreement] at found
    split at found
    · obtain ⟨-, -, same⟩ := Option.bind_eq_some_iff.mp found
      cases same
      exact fits
    · exact holds.held key other found
  accepted := holds.accepted

/-- What stands beside the slots of a station does not matter. -/
theorem HoldsOnly.modify {f : Station → Station} (holds : n.HoldsOnly kind) (peer : MacAddress)
    (keepsAddress : ∀ station, (f station).address = station.address)
    (keepsSlots : ∀ station, (f station).slots = station.slots) :
    HoldsOnly kind { n with stations := n.stations.modify peer f } := by
  refine holds.of_fewer (StationTable.distinct_modify keepsAddress holds.distinct) ?_ (fun _ => id)
  intro key a found
  rwa [StationTable.agreement?, StationTable.slot?_modify_of_slots keepsAddress keepsSlots] at found

theorem HoldsOnly.setState {state : AgreementState} (holds : n.HoldsOnly kind) :
    (n.setState peer flow state).HoldsOnly kind :=
  holds.of_fewer (StationTable.distinct_modifySlots holds.distinct)
    (fun _ _ found => StationTable.agreement?_setState.symm.trans found) (fun _ => id)

theorem HoldsOnly.of_responderPart (holds : n.HoldsOnly kind)
    (same : m.responderPart = n.responderPart) : m.HoldsOnly kind := by
  have sameStations : m.stations = n.stations := congrArg ResponderPart.stations same
  have sameAnswers : m.answers = n.answers := congrArg ResponderPart.answers same
  exact ⟨sameStations ▸ holds.distinct, sameStations ▸ holds.held, sameAnswers ▸ holds.accepted⟩

theorem HoldsOnly.ensure {stations : StationTable} (holds : n.HoldsOnly kind)
    (ensured : n.stations.ensure peer = .ok stations) : HoldsOnly kind { n with stations } :=
  holds.of_fewer (StationTable.distinct_of_ensure ensured holds.distinct)
    (fun _ _ found => (StationTable.agreement?_of_ensure ensured).symm.trans found) (fun _ => id)

/-! ### Ends of a negotiation -/

theorem HoldsOnly.dropStation (holds : n.HoldsOnly kind) : (n.dropStation peer).HoldsOnly kind := by
  refine holds.of_fewer (StationTable.distinct_remove holds.distinct) ?_
    (fun _ member => (List.mem_filter.mp member).1)
  intro key a found
  rw [Negotiation.dropStation, StationTable.agreement?_remove holds.distinct] at found
  split at found
  · cases found
  · exact found

theorem HoldsOnly.collectIdle (holds : n.HoldsOnly kind) : (n.collectIdle peer).HoldsOnly kind := by
  unfold Negotiation.collectIdle
  split
  · split
    · exact holds.dropStation
    · exact holds
  · exact holds

theorem HoldsOnly.removeAgreement {key : AgreementKey} (holds : n.HoldsOnly kind) :
    (n.removeAgreement key).HoldsOnly kind := by
  refine HoldsOnly.collectIdle
    (holds.of_fewer (StationTable.distinct_modifySlots holds.distinct) ?_ (fun _ => id))
  intro other a found
  rw [StationTable.agreement?_setAgreement] at found
  split at found
  · simp at found
  · exact found

theorem HoldsOnly.conclude {conclusion : Conclusion} (holds : n.HoldsOnly kind)
    (carries : conclusion = .established → ∀ a, event.agreement? = some a → kind a) :
    (n.conclude event conclusion).HoldsOnly kind := by
  unfold Negotiation.conclude
  split
  · exact holds
  · cases conclusion with
    | cleared => exact holds.setState.removeAgreement
    | established =>
        dsimp only
        split
        · exact holds.setState
        case h_2 agreement carried =>
          exact holds.setState.setAgreement (carries rfl agreement carried)

/-! ### Answers -/

theorem HoldsOnly.respond {answer : Event} {conclusion : Option Conclusion}
    (holds : n.HoldsOnly kind) (accepts : ∀ a, answer.body = .setup .accept a → kind a)
    (carries : conclusion = some .established → ∀ a, answer.agreement? = some a → kind a) :
    (n.respond answer conclusion).HoldsOnly kind := by
  have noted (tasks : List Task) :
      HoldsOnly kind { n with stations := n.stations.withoutNote answer.source, tasks } := by
    have answered := holds.modify answer.source
      (f := ({ · with actionPending := false })) (fun _ => rfl) (fun _ => rfl)
    exact ⟨answered.distinct, answered.held, answered.accepted⟩
  have response := responded answer conclusion n
  generalize n.respond answer conclusion = m at response ⊢
  cases response with
  | unknown => exact holds
  | waiting =>
      refine { holds with accepted := fun other member => ?_ }
      rcases List.mem_append.mp member with earlier | new
      · exact holds.accepted other earlier
      · rw [List.mem_singleton.mp new]
        exact accepts
  | @left _ tasks => exact noted tasks
  | @concluded _ tasks c ends =>
      exact (noted tasks).conclude fun established =>
        carries (ends.trans (congrArg some established))

theorem HoldsOnly.reject {agreement : Agreement} (holds : n.HoldsOnly kind) :
    (n.reject peer flow agreement).HoldsOnly kind := by
  refine holds.respond (fun a accepts => by cases accepts) fun ends => ?_
  split at ends
  · cases ends
  · cases ends

/-- What is accepted is what the schedule has given a place. -/
theorem HoldsOnly.accept {command : SetupCommand} {agreement : Agreement} (holds : n.HoldsOnly old)
    (wider : ∀ a, old a → new a) (grants : GrantedAs old new agreement)
    (notDemand : command ≠ .demand) : (n.accept peer flow command agreement).HoldsOnly new := by
  rw [accept_eq]
  dsimp only
  split
  case h_1 schedule _ =>
    have refused : HoldsOnly old { n with schedule } := ⟨holds.1, holds.2, holds.3⟩
    exact (refused.mono wider).reject
  case h_2 scheduled schedule granted =>
    have fits := grants n _ _ _ _ holds notDemand granted
    have placed : HoldsOnly old { n with schedule } := ⟨holds.1, holds.2, holds.3⟩
    refine ((placed.mono wider).setAgreement fits).respond (fun a accepts => ?_)
      (fun _ a carried => ?_)
    · cases accepts
      exact fits
    · cases carried
      exact fits

/-! ### Events -/

theorem HoldsOnly.consider {command : SetupCommand} {agreement : Agreement}
    (holds : n.HoldsOnly old) (wider : ∀ a, old a → new a) (grants : GrantedAs old new agreement) :
    (n.consider peer flow command agreement).HoldsOnly new := by
  unfold Negotiation.consider
  split
  · exact holds.mono wider
  · cases command
    case request | suggest => exact holds.setState.accept wider grants (by simp)
    case demand | grouping => exact (holds.setState.mono wider).reject
    all_goals exact holds.mono wider

theorem HoldsOnly.answerRequest {command : SetupCommand} {agreement : Agreement}
    {state : AgreementState} (holds : n.HoldsOnly old) (wider : ∀ a, old a → new a)
    (grants : GrantedAs old new agreement) :
    (n.answerRequest peer flow command agreement state).HoldsOnly new := by
  unfold Negotiation.answerRequest
  split
  · exact holds.consider wider grants
  case h_6 =>
    split
    · exact holds.mono wider
    · exact (holds.mono wider).reject
  all_goals exact holds.mono wider

theorem HoldsOnly.handleTeardown (holds : n.HoldsOnly kind) :
    (n.handleTeardown event).HoldsOnly kind := by
  unfold Negotiation.handleTeardown
  split
  · exact holds.of_responderPart (responderPart_handleOwnTeardown event n)
  · split
    · split
      · exact holds
      · exact holds
      · exact holds.conclude fun ends => by cases ends
    · exact holds

/-- An event brings in at most what is granted for its own agreement. -/
theorem HoldsOnly.handleEvent (holds : n.HoldsOnly old) (wider : ∀ a, old a → new a)
    (grants : ∀ a, event.agreement? = some a → GrantedAs old new a) :
    (n.handleEvent event).1.HoldsOnly new := by
  unfold Negotiation.handleEvent
  split
  · exact holds.handleTeardown.mono wider
  case h_2 command agreement body =>
    have carried : event.agreement? = some agreement := by rw [Event.agreement?, body]
    split
    · split
      · split
        · exact holds.mono wider
        case h_2 stations ensured =>
          exact (holds.ensure ensured).answerRequest wider (grants agreement carried)
      · exact holds.mono wider
    · split
      · exact (holds.of_responderPart (responderPart_handleAnswer event _ n)).mono wider
      · exact holds.mono wider

theorem HoldsOnly.opened (holds : n.HoldsOnly kind) (source : Option MacAddress) :
    (n.opened source).HoldsOnly kind :=
  ⟨holds.distinct, holds.held, holds.accepted⟩

/-- What is put back, or deferred, brings in nothing. -/
theorem HoldsOnly.handleEvents {source : Option MacAddress}
    (all : (handleAll (n.due source) (n.opened source)).1.HoldsOnly kind) :
    (n.handleEvents source).HoldsOnly kind := by
  obtain ⟨events, tasks, handled⟩ := handleEvents_eq source n
  rw [handled]
  exact ⟨all.distinct, all.held, all.accepted⟩

/-! ### Operations -/

/-- An acceptance that is taken out brings nothing in that was not granted before. -/
theorem HoldsOnly.takeAnswer (holds : n.HoldsOnly kind) (peer : MacAddress) :
    (n.takeAnswer peer).2.HoldsOnly kind := by
  have taken := answerTaken peer n
  generalize n.takeAnswer peer = result at taken ⊢
  have left : (n.withoutAnswer peer).HoldsOnly kind :=
    holds.of_fewer holds.distinct (fun _ _ => id) (fun _ => List.mem_of_mem_eraseP)
  have concluded (answer : Event) (conclusion : Conclusion)
      (carries : conclusion = .established → ∀ a, answer.agreement? = some a → kind a) :
      ((n.withoutAnswer peer).conclude answer conclusion).HoldsOnly kind := left.conclude carries
  cases taken with
  | nothing => exact holds
  | @established answer agreement _ first accepts =>
      refine concluded answer .established fun _ a carried => ?_
      rw [Event.agreement?, accepts] at carried
      cases carried
      exact holds.accepted answer (EventQueue.mem_of_peek? first) agreement accepts
  | cleared => exact concluded _ .cleared fun ends => by cases ends
  | kept => exact left
  | refused => exact left

/-- Only handling events can bring in anything new. -/
theorem HoldsOnly.apply (holds : n.HoldsOnly kind) (operation : Operation)
    (handled : ∀ source, operation = .handleEvents source →
      (n.handleEvents source).HoldsOnly kind) :
    (operation.apply n).HoldsOnly kind := by
  have result := applied n operation
  generalize operation.apply n = m at result ⊢
  cases result with
  | untouched same => exact holds.of_responderPart same
  | @queued _ _ event _ same =>
      have queued : (n.queueEvent event).HoldsOnly kind := ⟨holds.1, holds.2, holds.3⟩
      exact queued.of_responderPart same
  | @noted _ event source token _ stations _ ensured same =>
      have noted : HoldsOnly kind { n.queueEvent event with
          stations := stations.withNote source token } := by
        have extended := (holds.ensure ensured).modify source
          (f := ({ · with dialogToken := token, actionPending := true }))
          (fun _ => rfl) (fun _ => rfl)
        exact ⟨extended.1, extended.2, extended.3⟩
      exact noted.of_responderPart same
  | handled source => exact handled source rfl
  | taken => exact holds.takeAnswer _
  | forgotten peer same => exact holds.dropStation.of_responderPart same
  | purged => exact ⟨holds.1, holds.2, holds.3⟩
  | cleared =>
      exact holds.of_fewer List.Pairwise.nil (fun _ _ found => by cases found)
        (fun _ member => by cases member)

end TargetWakeTime.Negotiation
