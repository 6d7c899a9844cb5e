import TargetWakeTime.Proofs.Negotiation.Conservation
import TargetWakeTime.Proofs.Negotiation.Granting
import TargetWakeTime.Proofs.Negotiation.Spacing
import TargetWakeTime.Proofs.Schedule.Sums

/-!
Contract: how fast wake times grow, and that scheduling never leaves its words.

Owns:
- the moments of a run, each with the number of events that were handled before it;
- the sums that handling an event forms, followed through the answer to its request;
- the longest duration that an element can name, by which one event takes wake times further.

## Why wake times have no fixed bound

The members of a group are placed behind each other, and the group may lose its first member and gain
a last one as often as it likes: wake times are not brought back into the first interval. What bounds
them is the number of grants. One grant starts at zero or where a period that is held already ends,
and that is where a wake time lies plus one duration.

An acceptance may wait and be stored long after it was scheduled. It was granted earlier, so that
the bound of its own time holds all the more.
-/

namespace TargetWakeTime

/-- Whether the agreement that an event carries was read from an element. -/
def Event.Parsed (e : Event) : Prop :=
  ∀ a, e.agreement? = some a → ∃ element, Agreement.parse element = .ok a

/-- Microseconds of the longest duration that an element can name, 255 time units. -/
def longestDuration : Nat := 261120

theorem Agreement.wakeDuration_le_of_parse {element : List UInt8} {a : Agreement}
    (read : parse element = .ok a) : a.wakeDuration.toNat ≤ longestDuration := by
  have duration : (if a.control.durationInTimeUnits then
      WakeDuration.ofTimeUnits a.parameters.minimumDuration
      else WakeDuration.ofUnits a.parameters.minimumDuration) = a.wakeDuration :=
    congrArg Agreement.wakeDuration (legible_of_parse read).values
  have octet := a.parameters.minimumDuration.toNat_lt
  rw [← duration, longestDuration]
  split
  · rw [WakeDuration.ofTimeUnits, toNat_units _ (by decide), TimeUnit.micros]
    omega
  · rw [WakeDuration.ofUnits, toNat_units _ (by decide), TimeUnit.fineMicros]
    omega

namespace Negotiation

theorem FromFrame.parsed {event : Event} (framed : FromFrame event) : event.Parsed := by
  intro a carried
  cases framed with
  | element read =>
      cases carried
      exact ⟨_, read⟩
  | teardown => cases carried

/-- Whether an operation brings in only what was read from elements. Frames cannot do otherwise. -/
def Operation.BringsParsed : Operation → Prop
  | queueEvent event => event.Parsed
  | _ => True

/-! ### Moments of a run -/

/-- A point of a run: how many events were handled before it, the state, and the event that is taken
up next, if any. -/
structure Moment where
  handled : Nat
  state : Negotiation
  next : Option Event

/-- An event counts once it is handled; one that finds the table full is put back and does not. -/
def counted (event : Event) (n : Negotiation) : Nat := if (n.handleEvent event).2 then 0 else 1

def countedIn : List Event → Negotiation → Nat
  | [], _ => 0
  | event :: rest, n => counted event n + countedIn rest (n.handleEvent event).1

/-- The moments in which the events of a list are taken up. -/
def moments (handled : Nat) : List Event → Negotiation → List Moment
  | [], _ => []
  | event :: rest, n =>
      ⟨handled, n, some event⟩ ::
        moments (handled + counted event n) rest (n.handleEvent event).1

/-- How many events an operation handles. -/
def Operation.handledCount (n : Negotiation) : Operation → Nat
  | handleEvents source => countedIn (n.due source) (n.opened source)
  | _ => 0

def Operation.moments (handled : Nat) (n : Negotiation) : Operation → List Moment
  | handleEvents source => Negotiation.moments handled (n.due source) (n.opened source)
  | _ => []

/-- All moments of a run: those between its operations, and those inside of them in which an event
is taken up. -/
def timeline (handled : Nat) : Negotiation → List Operation → List Moment
  | n, [] => [⟨handled, n, none⟩]
  | n, operation :: rest =>
      ⟨handled, n, none⟩ :: operation.moments handled n ++
        timeline (handled + operation.handledCount n) (operation.apply n) rest

/-- How many events a run handles. -/
def handledCount : Negotiation → List Operation → Nat
  | _, [] => 0
  | n, operation :: rest => operation.handledCount n + handledCount (operation.apply n) rest

/-! ### The sums of an event -/

def acceptSums (peer : MacAddress) (flow : UInt8) (command : SetupCommand) (agreement : Agreement)
    (n : Negotiation) : List Nat :=
  n.schedule.sums ⟨peer, flow⟩ agreement command n.stations.servicePeriod?

/-- Only requests and suggestions for a flow that has a slot come to the schedule. -/
def considerSums (peer : MacAddress) (flow : UInt8) (command : SetupCommand) (agreement : Agreement)
    (n : Negotiation) : List Nat :=
  match n.stations.slot? ⟨peer, flow⟩, command with
  | some _, .request =>
      (n.setState peer flow .considerRequest).acceptSums peer flow command agreement
  | some _, .suggest =>
      (n.setState peer flow .considerSuggest).acceptSums peer flow command agreement
  | _, _ => []

/-- The sums that handling an event forms, not reduced to words. A flow that is not free is not
scheduled. -/
def eventSums (event : Event) (n : Negotiation) : List Nat :=
  match event.body with
  | .teardown => []
  | .setup command agreement =>
      if command.isRequest && n.responder then
        match n.stations.ensure event.source with
        | .error _ => []
        | .ok stations =>
            let n := { n with stations }
            match (n.stateOf event.source event.flow).getD .noAgreement with
            | .noAgreement => n.considerSums event.source event.flow command agreement
            | _ => []
      else []

/-- No sum leaves the words: neither the end of a service period that is held, nor what handling the
next event forms. -/
structure Moment.Exact (moment : Moment) : Prop where
  ends : ∀ key p, moment.state.stations.servicePeriod? key = some p → p.ends < UInt64.size
  sums : ∀ event, moment.next = some event →
    ∀ sum ∈ moment.state.eventSums event, sum < UInt64.size

variable {n : Negotiation} {event : Event} {handled : Nat} {operations : List Operation}

/-! ### One event -/

/-- What so many handled events can have led to. -/
structure Early (handled : Nat) (a : Agreement) : Prop where
  wakeTime : a.wakeTime.toNat ≤ handled * longestDuration
  duration : a.wakeDuration.toNat ≤ longestDuration

theorem Early.later {a : Agreement} {more : Nat} (early : Early handled a) (le : handled ≤ more) :
    Early more a where
  wakeTime := Nat.le_trans early.wakeTime (Nat.mul_le_mul_right _ le)
  duration := early.duration

/-- The periods that are held end one duration behind the latest wake time. -/
theorem ends_le_of_early {key : AgreementKey} {p : ServicePeriod}
    (holds : n.HoldsOnly (Early handled)) (found : n.stations.servicePeriod? key = some p) :
    p.ends ≤ handled * longestDuration + longestDuration := by
  obtain ⟨a, held, rfl⟩ := Option.map_eq_some_iff.mp found
  have early := holds.held key a held
  exact Nat.add_le_add early.wakeTime early.duration

/-- What was read from an element is granted a wake time that lies at most one duration further on
than all those before it. -/
theorem grantedAs_early {element : List UInt8} {a : Agreement}
    (read : Agreement.parse element = .ok a) :
    GrantedAs (Early handled) (Early (handled + 1)) a := by
  intro n key command scheduled after holds notDemand granted
  obtain ⟨-, -, position, wakeTime, placed, rfl, -⟩ := Schedule.schedule_ok granted
  have duration := Agreement.wakeDuration_le_of_parse read
  refine ⟨?_, duration⟩
  show wakeTime.toNat ≤ (handled + 1) * longestDuration
  rcases Schedule.wakeTime_of_placed placed notDemand with rfl | ⟨member, p, found, rfl⟩
  · exact Nat.zero_le _
  · calc p.finish.toNat ≤ p.ends := p.toNat_finish_le
      _ ≤ handled * longestDuration + longestDuration := ends_le_of_early holds found
      _ = (handled + 1) * longestDuration := (Nat.succ_mul ..).symm

theorem early_handleEvent (holds : n.HoldsOnly (Early handled)) (parsed : event.Parsed) :
    (n.handleEvent event).1.HoldsOnly (Early (handled + counted event n)) := by
  by_cases crowded : CrowdedOut event n
  · rw [counted, handleEvent_of_crowdedOut crowded]
    exact holds
  · rw [counted, done_of_not_crowdedOut crowded]
    refine holds.handleEvent (fun a early => early.later (Nat.le_add_right ..)) fun a carried => ?_
    obtain ⟨element, read⟩ := parsed a carried
    exact grantedAs_early read

/-! ### The sums of one event -/

/-- So many events lie far behind the end of the words. -/
theorem lt_of_mem_acceptSums {peer : MacAddress} {flow : UInt8} {command : SetupCommand}
    {element : List UInt8} {a : Agreement} (holds : n.HoldsOnly (Early handled))
    (read : Agreement.parse element = .ok a) (few : handled < 1 <<< 45) :
    ∀ sum ∈ n.acceptSums peer flow command a, sum < UInt64.size := by
  refine Schedule.lt_of_mem_sums fun member p found => ?_
  have ends := ends_le_of_early holds found
  have interval := Agreement.wakeInterval_lt_of_parse read
  have duration := Agreement.wakeDuration_le_of_parse read
  rw [longestDuration] at ends duration
  rw [UInt64.size]
  omega

theorem lt_of_mem_considerSums {peer : MacAddress} {flow : UInt8} {command : SetupCommand}
    {element : List UInt8} {a : Agreement} (holds : n.HoldsOnly (Early handled))
    (read : Agreement.parse element = .ok a) (few : handled < 1 <<< 45) :
    ∀ sum ∈ n.considerSums peer flow command a, sum < UInt64.size := by
  unfold considerSums
  split
  · exact lt_of_mem_acceptSums holds.setState read few
  · exact lt_of_mem_acceptSums holds.setState read few
  · simp

theorem lt_of_mem_eventSums (holds : n.HoldsOnly (Early handled)) (parsed : event.Parsed)
    (few : handled < 1 <<< 45) : ∀ sum ∈ n.eventSums event, sum < UInt64.size := by
  unfold eventSums
  split
  · simp
  case h_2 command agreement body =>
    obtain ⟨element, read⟩ := parsed agreement (by rw [Event.agreement?, body])
    split
    · split
      · simp
      case h_2 stations ensured =>
        dsimp only
        split
        · exact lt_of_mem_considerSums (holds.ensure ensured) read few
        · simp
    · simp

/-! ### Runs -/

/-- What so many handled events can have led to, and that nothing unread is queued. -/
structure Grown (handled : Nat) (n : Negotiation) : Prop where
  early : n.HoldsOnly (Early handled)
  queued : ∀ event ∈ n.events.toList, event.Parsed

/-- What holds of every moment of a run. -/
structure Moment.Grown (moment : Moment) : Prop where
  early : moment.state.HoldsOnly (Early moment.handled)
  next : ∀ event, moment.next = some event → event.Parsed

theorem Moment.Grown.exact {moment : Moment} (grown : moment.Grown)
    (few : moment.handled < 1 <<< 45) : moment.Exact where
  ends key p found := by
    have ends := ends_le_of_early grown.early found
    rw [longestDuration] at ends
    rw [UInt64.size]
    omega
  sums event taken := lt_of_mem_eventSums grown.early (grown.next event taken) few

theorem early_handleAll {events : List Event} (holds : n.HoldsOnly (Early handled))
    (parsed : ∀ event ∈ events, event.Parsed) :
    (handleAll events n).1.HoldsOnly (Early (handled + countedIn events n)) := by
  induction events generalizing n handled with
  | nil => exact holds
  | cons event rest inductionHypothesis =>
      have next := early_handleEvent holds (parsed event List.mem_cons_self)
      have onward := inductionHypothesis next
        fun e member => parsed e (List.mem_cons_of_mem _ member)
      rwa [Nat.add_assoc] at onward

theorem grown_of_mem_moments {events : List Event} (holds : n.HoldsOnly (Early handled))
    (parsed : ∀ event ∈ events, event.Parsed) :
    ∀ moment ∈ moments handled events n, moment.Grown := by
  induction events generalizing n handled with
  | nil => intro moment member; cases member
  | cons event rest inductionHypothesis =>
      have first : event.Parsed := parsed event List.mem_cons_self
      have onward := inductionHypothesis (early_handleEvent holds first)
        fun e member => parsed e (List.mem_cons_of_mem _ member)
      exact List.forall_mem_cons.mpr ⟨⟨holds, fun e next => Option.some.inj next ▸ first⟩, onward⟩

theorem Grown.parsed_due (grown : n.Grown handled) (source : Option MacAddress) :
    ∀ event ∈ n.due source, event.Parsed :=
  fun event member => grown.queued event (List.mem_filter.mp member).1

theorem grown_of_mem_operation {operation : Operation} (grown : n.Grown handled) :
    ∀ moment ∈ operation.moments handled n, moment.Grown := by
  cases operation
  case handleEvents source =>
    exact grown_of_mem_moments (grown.early.opened source) (grown.parsed_due source)
  all_goals exact fun _ member => by cases member

theorem grown_apply {operation : Operation} (grown : n.Grown handled)
    (brings : operation.BringsParsed) :
    (operation.apply n).Grown (handled + operation.handledCount n) where
  early := by
    have wider : n.HoldsOnly (Early (handled + operation.handledCount n)) :=
      grown.early.mono fun a early => early.later (Nat.le_add_right ..)
    refine wider.apply operation fun source handles => ?_
    subst handles
    exact (early_handleAll (grown.early.opened source) (grown.parsed_due source)).handleEvents
  queued := by
    refine events_apply (fun _ => FromFrame.parsed) (fun event queues => ?_) grown.queued
    subst queues
    exact brings

theorem grown_of_mem_timeline (grown : n.Grown handled)
    (parsed : ∀ operation ∈ operations, operation.BringsParsed) :
    ∀ moment ∈ timeline handled n operations, moment.Grown := by
  have now : Moment.Grown ⟨handled, n, none⟩ := ⟨grown.early, fun _ next => by cases next⟩
  induction operations generalizing n handled with
  | nil => exact List.forall_mem_singleton.mpr now
  | cons operation rest inductionHypothesis =>
      have next := grown_apply grown (parsed operation List.mem_cons_self)
      have onward := inductionHypothesis next
        (fun other member => parsed other (List.mem_cons_of_mem _ member))
        ⟨next.early, fun _ next => by cases next⟩
      exact List.forall_mem_cons.mpr
        ⟨now, List.forall_mem_append.mpr ⟨grown_of_mem_operation grown, onward⟩⟩

/-! ### Counting -/

theorem handled_le_of_mem_moments {events : List Event} :
    ∀ moment ∈ moments handled events n, moment.handled ≤ handled + countedIn events n := by
  induction events generalizing n handled with
  | nil => intro moment member; cases member
  | cons event rest inductionHypothesis =>
      refine List.forall_mem_cons.mpr ⟨Nat.le_add_right .., fun moment member => ?_⟩
      have later := inductionHypothesis moment member
      rwa [Nat.add_assoc] at later

theorem handled_le_of_mem_operation {operation : Operation} :
    ∀ moment ∈ operation.moments handled n,
      moment.handled ≤ handled + operation.handledCount n := by
  cases operation
  case handleEvents source => exact handled_le_of_mem_moments
  all_goals exact fun _ member => by cases member

/-- At no moment more events were handled than in the whole run. -/
theorem handled_le_of_mem_timeline :
    ∀ moment ∈ timeline handled n operations,
      moment.handled ≤ handled + handledCount n operations := by
  induction operations generalizing n handled with
  | nil => exact List.forall_mem_singleton.mpr (Nat.le_refl _)
  | cons operation rest inductionHypothesis =>
      refine List.forall_mem_cons.mpr ⟨Nat.le_add_right .., List.forall_mem_append.mpr
        ⟨fun moment member => ?_, fun moment member => ?_⟩⟩
      · have inside := handled_le_of_mem_operation moment member
        exact Nat.le_trans inside (Nat.add_le_add_left (Nat.le_add_right ..) _)
      · have later := inductionHypothesis moment member
        rwa [Nat.add_assoc] at later

/-- If all agreements that come in were read from elements, then a wake time that is held is at most
as many longest durations as events were handled, at every moment of every run; and in a run that
handles fewer than 2 ^ 45 events, scheduling forms no sum that leaves the words. -/
theorem wakeTime_le_handled_and_sums_exact (settings : Settings) (operations : List Operation)
    (parsed : ∀ operation ∈ operations, operation.BringsParsed) :
    (∀ moment ∈ timeline 0 (new settings) operations, ∀ key a,
      moment.state.stations.agreement? key = some a → a.wakeTime.toNat ≤ moment.handled * 261120) ∧
    (handledCount (new settings) operations < 1 <<< 45 →
      ∀ moment ∈ timeline 0 (new settings) operations, moment.Exact) := by
  have start : (new settings).Grown 0 := ⟨holdsOnly_new _ settings, fun _ member => by cases member⟩
  have grown := grown_of_mem_timeline start parsed
  refine ⟨fun moment member key a held => ?_, fun few moment member => ?_⟩
  · exact ((grown moment member).early.held key a held).wakeTime
  · have before := handled_le_of_mem_timeline moment member
    exact (grown moment member).exact (by omega)

/-- A request for the longest duration, with an interval that holds two of them. -/
def longestAgreement : Agreement :=
  .ofParameters { ControlField.zero with durationInTimeUnits := true }
    { Parameters.zero with
      requestType := ({ RequestType.zero with request := true, implicit := true }).withExponent 10
      minimumDuration := 255
      mantissa := 510 }

/-- Stations share an interval. Twice the first of the group leaves and another one comes last; the
last of all is queued without a frame. -/
def risingWakeTimes : List Operation :=
  let peer (number : UInt8) : MacAddress := ⟨2, 0, 0, 0, 0, number⟩
  let asks (number : UInt8) : List Operation :=
    [.receiveElement (peer number) longestAgreement.element, .handleEvents none]
  let leaves (number : UInt8) : List Operation :=
    [.takeAnswer (peer number), .receiveTeardown (peer number) 0, .handleEvents none]
  asks 1 ++ asks 2 ++ leaves 1 ++ asks 3 ++ leaves 2 ++
    [.queueEvent (.setup (peer 4) longestAgreement), .handleEvents none]

/-- After six events the last wake time lies three durations ahead, where the interval holds two. -/
theorem wakeTime_le_handled_and_sums_exact_risingWakeTimes :
    let start := new .accessPoint
    let key : AgreementKey := ⟨⟨2, 0, 0, 0, 0, 4⟩, 0⟩
    handledCount start risingWakeTimes = 6 ∧
      ((run start risingWakeTimes).stations.agreement? key).map (·.wakeTime) = some 783360 ∧
      (∀ operation ∈ risingWakeTimes, operation.BringsParsed) ∧
      ∀ moment ∈ timeline 0 start risingWakeTimes, moment.Exact := by
  intro start key
  have legible : longestAgreement.Legible := ⟨by decide +kernel, by decide +kernel, rfl⟩
  have parsed : ∀ operation ∈ risingWakeTimes, operation.BringsParsed := by
    have queued (source : MacAddress) : (Event.setup source longestAgreement).Parsed :=
      fun a carried => ⟨_, Option.some.inj carried ▸ legible.parse_element⟩
    simp [risingWakeTimes, Operation.BringsParsed, queued]
  have few : handledCount start risingWakeTimes = 6 := by decide +kernel
  have bounds := wakeTime_le_handled_and_sums_exact .accessPoint risingWakeTimes parsed
  exact ⟨few, by decide +kernel, parsed, bounds.2 (few ▸ by decide)⟩

end Negotiation

end TargetWakeTime
