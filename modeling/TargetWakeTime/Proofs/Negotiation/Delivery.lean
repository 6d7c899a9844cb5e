import TargetWakeTime.Proofs.Negotiation.Reply

/-!
Contract: answers go back the way their requests came.

Owns:
- how an answer has to leave, by the way in which its request came in;
- the history of a run, which is told by the frames that came and the answers that left, and not by
  what the stations have noted;
- the exchanges of a run, each an event that is handled and what it is answered;
- that answers go back along a run exactly if each finds its own frame to be the last one of its
  station that has no answer.
-/

namespace TargetWakeTime

/-- The station that a setup frame goes to. -/
def Task.setupDestination? : Task → Option MacAddress
  | .sendSetup destination .. => some destination
  | _ => none

namespace Negotiation

/-- How an answer has to leave. -/
inductive Reply where
  /-- In an action frame with the token of the one that asked. -/
  | inFrame (token : UInt8)
  | waiting
deriving DecidableEq, Repr

/-- The token of the action frame that asked, if one did. -/
def Reply.token? : Reply → Option UInt8
  | inFrame token => some token
  | waiting => none

/-- The setup frames that leave because of an event. -/
def sent (event : Event) (n : Negotiation) : List Task :=
  ((n.handleEvent event).1.tasks.drop n.tasks.length).filter (·.setupDestination?.isSome)

/-- The answers that wait because of an event. -/
def leftWaiting (event : Event) (n : Negotiation) : List Event :=
  (n.handleEvent event).1.answers.toList.drop n.answers.toList.length

/-! ### Histories -/

/-- What the frames of a run tell. -/
structure History where
  /-- How the answer to the last event of a flow has to leave, if this is known. -/
  replies : AgreementKey → Option Reply := fun _ => none
  /-- The last action frame of a station, unless the station was forgotten or an answer left for it
  in an action frame since. -/
  unanswered : MacAddress → Option UInt8 := fun _ => none

namespace History

/-- The stations that a state does not know are forgotten. -/
def forget (n : Negotiation) (h : History) : MacAddress → Option UInt8 := fun peer =>
  if n.stations.contains peer then h.unanswered peer else none

def afterEvent (event : Event) (n : Negotiation) (h : History) : History :=
  { h with
    unanswered := fun peer =>
      if (n.sent event).any (·.setupDestination? == some peer) then none
      else h.forget (n.handleEvent event).1 peer }

def afterAll : List Event → Negotiation → History → History
  | [], _, h => h
  | event :: rest, n, h => afterAll rest (n.handleEvent event).1 (h.afterEvent event n)

/-- How the answer to the last event of a flow has to leave, once this event has come. -/
def expect (key : AgreementKey) (reply? : Option Reply) (h : History) :
    AgreementKey → Option Reply := fun other =>
  if other = key then reply? else h.replies other

def repliesAfter (n : Negotiation) (operation : Operation) (h : History) :
    AgreementKey → Option Reply :=
  match operation with
  | .receiveElement source element =>
      match Agreement.parse element with
      | .ok agreement => h.expect ⟨source, agreement.flow⟩ (some .waiting)
      | .error _ => h.replies
  | .receiveSetup source token element =>
      match Agreement.parse element with
      | .ok agreement =>
          h.expect ⟨source, agreement.flow⟩
            (if (n.receiveSetup source token element).1.isOk then some (.inFrame token) else none)
      | .error _ => h.replies
  | .receiveTeardown source flow => h.expect (Event.teardown source flow).key none
  | .queueEvent event => h.expect event.key none
  | _ => h.replies

def unansweredAfter (n : Negotiation) (operation : Operation) (h : History) :
    MacAddress → Option UInt8 :=
  match operation with
  | .receiveSetup source token element =>
      if (n.receiveSetup source token element).1.isOk ∧ n.responder ∧ !n.isBssid source then
        fun peer => if peer = source then some token else h.unanswered peer
      else h.unanswered
  | .handleEvents source => (h.afterAll (n.due source) (n.opened source)).unanswered
  | operation => h.forget (operation.apply n)

def after (n : Negotiation) (operation : Operation) (h : History) : History :=
  ⟨h.repliesAfter n operation, h.unansweredAfter n operation⟩

end History

/-! ### Exchanges -/

structure Exchange where
  event : Event
  /-- The state in which the event is taken up. -/
  state : Negotiation
  reply? : Option Reply
  /-- The last action frame of the event's station that has no answer. -/
  unanswered : Option UInt8
deriving DecidableEq

namespace Exchange

def Answered (x : Exchange) : Prop :=
  x.state.sent x.event ≠ [] ∨ x.state.leftWaiting x.event ≠ []

/-- Whether the one answer leaves in this way. -/
def Delivered (x : Exchange) : Reply → Prop
  | .inFrame token => x.state.leftWaiting x.event = [] ∧
      ∃ element, x.state.sent x.event = [.sendSetup x.event.source token element x.event.flow]
  | .waiting => x.state.sent x.event = [] ∧
      ∃ answer, x.state.leftWaiting x.event = [answer] ∧ answer.key = x.event.key

/-- An answer goes back the way its request came. -/
def GoesBack (x : Exchange) : Prop :=
  x.Answered → ∀ reply, x.reply? = some reply → x.Delivered reply

/-- The last action frame without answer is the one that brought the request; there is none if no
action frame brought it. -/
def AsksLast (x : Exchange) : Prop :=
  x.Answered → ∀ reply, x.reply? = some reply → x.unanswered = reply.token?

end Exchange

def exchangesOf : List Event → Negotiation → History → List Exchange
  | [], _, _ => []
  | event :: rest, n, h =>
      ⟨event, n, h.replies event.key, h.unanswered event.source⟩ ::
        exchangesOf rest (n.handleEvent event).1 (h.afterEvent event n)

def exchangesFrom : History → Negotiation → List Operation → List Exchange
  | _, _, [] => []
  | h, n, operation :: rest =>
      (match operation with
        | .handleEvents source => exchangesOf (n.due source) (n.opened source) h
        | _ => []) ++ exchangesFrom (h.after n operation) (operation.apply n) rest

def exchanges (n : Negotiation) (operations : List Operation) : List Exchange :=
  exchangesFrom {} n operations

variable {n m : Negotiation} {event : Event} {h : History}

/-! ### Answers and notes -/

/-- The ways in which an event is answered, by what is sent and what waits. -/
inductive Answering (event : Event) (n : Negotiation) : Prop where
  | silent (nothingSent : n.sent event = []) (nothingWaits : n.leftWaiting event = [])
      (kept : NotesKept n.stations (n.handleEvent event).1.stations)
  | inFrame {token : UInt8} {element : List UInt8}
      (noted : n.stations.note? event.source = some token)
      (sends : n.sent event = [.sendSetup event.source token element event.flow])
      (nothingWaits : n.leftWaiting event = [])
      (kept : NotesKept (n.stations.withoutNote event.source) (n.handleEvent event).1.stations)
  | waits {answer : Event} (unnoted : n.stations.note? event.source = none)
      (nothingSent : n.sent event = []) (left : n.leftWaiting event = [answer])
      (sameKey : answer.key = event.key)
      (kept : NotesKept n.stations (n.handleEvent event).1.stations)

theorem answering (distinct : n.stations.Distinct) (event : Event) : Answering event n := by
  cases replied_handleEvent distinct event with
  | silent tasks chipOnly answers kept =>
      refine .silent ?_ (List.drop_eq_nil_of_le answers) kept
      rw [sent, tasks, List.drop_left, List.filter_eq_nil_iff]
      intro task member
      rw [chipOnly task member]
      simp [Task.setupDestination?]
  | @inFrame token element noted tasks answers kept =>
      have sends : n.sent event = [.sendSetup event.source token element event.flow] := by
        rw [sent, tasks, List.drop_left]
        rfl
      exact .inFrame noted sends (List.drop_eq_nil_of_le answers) kept
  | @waits answer unnoted tasks answers sameKey kept =>
      have nothingSent : n.sent event = [] := by
        rw [sent, tasks, List.drop_length]
        rfl
      have left : n.leftWaiting event = [answer] := by
        rw [leftWaiting, answers, List.drop_left]
      exact .waits unnoted nothingSent left sameKey kept

/-- What the frames of a run tell is what the stations have noted. -/
structure Tracks (h : History) (n : Negotiation) : Prop where
  distinct : n.stations.Distinct
  noted : ∀ peer, h.unanswered peer = n.stations.note? peer

/-- The stations that a state knows have kept their notes, and the others are forgotten. -/
theorem forget_eq_note? (tracks : Tracks h n) (kept : NotesKept n.stations m.stations)
    (peer : MacAddress) : h.forget m peer = m.stations.note? peer := by
  unfold History.forget
  split
  case isTrue known => rw [kept.same peer known, tracks.noted]
  case isFalse unknown =>
    exact (StationTable.note?_of_unknown (Bool.not_eq_true _ ▸ unknown)).symm

theorem tracks_afterEvent (tracks : Tracks h n) (event : Event) :
    Tracks (h.afterEvent event n) (n.handleEvent event).1 := by
  have distinct := tracks.distinct
  cases answering distinct event with
  | silent nothingSent _ kept =>
      refine ⟨kept.distinct, fun peer => ?_⟩
      simp only [History.afterEvent, nothingSent, List.any_nil, Bool.false_eq_true, if_false]
      exact forget_eq_note? tracks kept peer
  | inFrame _ sends _ kept =>
      refine ⟨kept.distinct, fun peer => ?_⟩
      -- The station may be forgotten after its answer; then both sides have nothing.
      have others : ∀ known : (n.handleEvent event).1.stations.contains peer = true,
          (n.handleEvent event).1.stations.note? peer =
            if peer = event.source then none else n.stations.note? peer := by
        intro known
        rw [kept.same peer known, StationTable.note?_withoutNote]
      simp only [History.afterEvent, History.forget, sends, List.any_cons, List.any_nil,
        Task.setupDestination?, Bool.or_false, beq_iff_eq, Option.some.injEq, tracks.noted]
      cases known : (n.handleEvent event).1.stations.contains peer with
      | true =>
          rw [others known]
          by_cases own : peer = event.source
          · rw [if_pos own, if_pos own.symm]
          · rw [if_neg own, if_neg (Ne.symm own), if_pos rfl]
      | false =>
          rw [StationTable.note?_of_unknown known]
          simp
  | waits _ nothingSent _ _ kept =>
      refine ⟨kept.distinct, fun peer => ?_⟩
      simp only [History.afterEvent, nothingSent, List.any_nil, Bool.false_eq_true, if_false]
      exact forget_eq_note? tracks kept peer

theorem tracks_afterAll {events : List Event} (tracks : Tracks h n) :
    Tracks (h.afterAll events n) (handleAll events n).1 := by
  induction events generalizing n h with
  | nil => exact tracks
  | cons event rest inductionHypothesis =>
      exact inductionHypothesis (tracks_afterEvent tracks event)

/-- An operation that takes in no action frame and handles no event may at most forget stations. -/
theorem notesKept_apply {operation : Operation} (distinct : n.stations.Distinct)
    (noFrame : ∀ source token element, operation ≠ .receiveSetup source token element)
    (noEvent : ∀ source, operation ≠ .handleEvents source) :
    NotesKept n.stations (operation.apply n).stations := by
  have result := applied n operation
  generalize operation.apply n = m at result ⊢
  cases result with
  | untouched same =>
      rw [show m.stations = n.stations from congrArg ResponderPart.stations same]
      exact .refl distinct
  | queued _ same =>
      rw [show m.stations = n.stations from congrArg ResponderPart.stations same]
      exact .refl distinct
  | noted => exact absurd rfl (noFrame _ _ _)
  | handled source => exact absurd rfl (noEvent source)
  | @taken _ peer =>
      have taken := answerTaken peer n
      generalize n.takeAnswer peer = result at taken ⊢
      cases taken with
      | nothing => exact .refl distinct
      | established => exact (quiet_conclude (n := n.withoutAnswer peer) distinct).kept
      | cleared => exact (quiet_conclude (n := n.withoutAnswer peer) distinct).kept
      | kept => exact .refl distinct
      | refused => exact .refl distinct
  | forgotten peer same =>
      rw [show m.stations = n.stations.remove peer from congrArg ResponderPart.stations same]
      exact .remove distinct peer
  | purged => exact .refl distinct
  | cleared => exact ⟨List.Pairwise.nil, fun peer known => by cases known⟩

theorem tracks_afterSetup (tracks : Tracks h n) (source : MacAddress) (token : UInt8)
    (element : List UInt8) :
    Tracks (h.after n (.receiveSetup source token element))
      (n.receiveSetup source token element).2 := by
  have received := setupReceived source token element n
  simp only [History.after, History.unansweredAfter]
  generalize n.receiveSetup source token element = result at received ⊢
  cases received with
  | malformed => exact ⟨tracks.distinct, tracks.noted⟩
  | crowded => exact ⟨tracks.distinct, tracks.noted⟩
  | @noted agreement stations _ answers ensured =>
      have known : stations.contains source = true := by
        rw [StationTable.contains, StationTable.get?_of_ensure ensured, if_pos rfl]
        rfl
      refine ⟨?_, fun peer => ?_⟩
      · exact StationTable.distinct_modify (fun _ => rfl)
          (StationTable.distinct_of_ensure ensured tracks.distinct)
      · have latest : (stations.withNote source token).note? peer =
            if peer = source then some token else h.unanswered peer := by
          rw [StationTable.note?_withNote known, StationTable.note?_of_ensure ensured,
            tracks.noted]
        refine Eq.trans ?_ latest.symm
        simp [answers, Except.isOk, Except.toBool]
  | plain _ silent =>
      have ignored : ¬ (n.responder = true ∧ (!n.isBssid source) = true) := by
        rintro ⟨responds, notBssid⟩
        rw [silent responds] at notBssid
        cases notBssid
      rw [if_neg fun taken => ignored taken.2]
      exact ⟨tracks.distinct, tracks.noted⟩

theorem tracks_after (tracks : Tracks h n) (operation : Operation) :
    Tracks (h.after n operation) (operation.apply n) := by
  have forgotten (noFrame : ∀ source token element,
        operation ≠ .receiveSetup source token element)
      (noEvent : ∀ source, operation ≠ .handleEvents source)
      (forgets : h.unansweredAfter n operation = h.forget (operation.apply n)) :
      Tracks (h.after n operation) (operation.apply n) := by
    have kept := notesKept_apply tracks.distinct noFrame noEvent
    refine ⟨kept.distinct, fun peer => ?_⟩
    rw [← forget_eq_note? tracks kept peer, ← forgets]
    rfl
  cases operation
  case receiveSetup source token element => exact tracks_afterSetup tracks source token element
  case handleEvents source =>
    obtain ⟨events, tasks, handled⟩ := handleEvents_eq source n
    have all : Tracks (h.afterAll (n.due source) (n.opened source))
        (handleAll (n.due source) (n.opened source)).1 :=
      tracks_afterAll ⟨tracks.distinct, tracks.noted⟩
    refine ⟨?_, fun peer => ?_⟩
    · rw [Operation.apply, handled]
      exact all.distinct
    · rw [Operation.apply, handled]
      exact all.noted peer
  all_goals exact forgotten (by simp) (by simp) rfl

/-! ### Answers along a run -/

/-- In a state that a history tracks, an answer goes back the way its request came exactly if the
last action frame without answer is the one that asked. -/
theorem delivered_iff {x : Exchange} (tracks : Tracks h x.state)
    (told : x.unanswered = h.unanswered x.event.source) (answered : x.Answered) (reply : Reply) :
    x.Delivered reply ↔ x.unanswered = reply.token? := by
  rw [told, tracks.noted]
  unfold Exchange.Delivered
  cases answering tracks.distinct x.event with
  | silent nothingSent nothingWaits =>
      rcases answered with sends | waits
      · exact absurd nothingSent sends
      · exact absurd nothingWaits waits
  | inFrame noted sends nothingWaits =>
      rw [noted, sends, nothingWaits]
      cases reply <;> simp [Reply.token?, eq_comm]
  | waits unnoted nothingSent left sameKey =>
      rw [unnoted, nothingSent, left]
      cases reply <;> simp [Reply.token?, sameKey]

theorem tracked_exchangesOf {events : List Event} (tracks : Tracks h n) :
    ∀ x ∈ exchangesOf events n h,
      ∃ told : History, Tracks told x.state ∧ x.unanswered = told.unanswered x.event.source := by
  induction events generalizing n h with
  | nil => simp [exchangesOf]
  | cons event rest inductionHypothesis =>
      intro x member
      rcases List.mem_cons.mp member with rfl | later
      · exact ⟨h, tracks, rfl⟩
      · exact inductionHypothesis (tracks_afterEvent tracks event) x later

theorem tracked_exchangesFrom {operations : List Operation} (tracks : Tracks h n) :
    ∀ x ∈ exchangesFrom h n operations,
      ∃ told : History, Tracks told x.state ∧ x.unanswered = told.unanswered x.event.source := by
  induction operations generalizing n h with
  | nil => simp [exchangesFrom]
  | cons operation rest inductionHypothesis =>
      intro x member
      rcases List.mem_append.mp member with now | later
      · cases operation
        case handleEvents source =>
          have opened : Tracks h (n.opened source) := ⟨tracks.distinct, tracks.noted⟩
          exact tracked_exchangesOf opened x now
        all_goals cases now
      · exact inductionHypothesis (tracks_after tracks operation) x later

/-- Answers go back the way their requests came all along a run exactly if each of them finds the
last action frame without answer to be the one that asked, or none if none asked. -/
theorem goesBack_iff_asksLast (settings : Settings) (operations : List Operation) :
    (∀ x ∈ exchanges (new settings) operations, x.GoesBack) ↔
      ∀ x ∈ exchanges (new settings) operations, x.AsksLast := by
  have start : Tracks {} (new settings) := ⟨List.Pairwise.nil, fun _ => rfl⟩
  refine forall₂_congr fun x member => ?_
  obtain ⟨h, tracks, told⟩ := tracked_exchangesFrom start x member
  constructor
  · intro goesBack answered reply expected
    exact (delivered_iff tracks told answered reply).mp (goesBack answered reply expected)
  · intro asksLast answered reply expected
    exact (delivered_iff tracks told answered reply).mpr (asksLast answered reply expected)

/-- A station asks for two flows in two action frames before the first is handled. -/
def twoFramesAtOnce : List Operation :=
  let peer : MacAddress := ⟨2, 0, 0, 0, 0, 1⟩
  [.receiveSetup peer 1 (requestElement 0 1 1024), .receiveSetup peer 2 (requestElement 1 1 1024),
    .handleEvents none]

/-- The first answer leaves with the token of the second frame. -/
theorem not_goesBack_twoFramesAtOnce :
    ¬ ∀ x ∈ exchanges (new .accessPoint) twoFramesAtOnce, x.GoesBack := by
  intro holds
  have crossed : ∃ x ∈ exchanges (new .accessPoint) twoFramesAtOnce,
      x.reply? = some (.inFrame 1) ∧ x.state.sent x.event ≠ [] ∧
        (x.state.sent x.event).all (fun task =>
          match task with
          | .sendSetup _ token _ _ => token == 2
          | _ => false) = true := by
    decide +kernel
  obtain ⟨x, member, asked, answered, otherToken⟩ := crossed
  obtain ⟨-, element, sends⟩ := holds x member (Or.inl answered) _ asked
  rw [sends] at otherToken
  exact Bool.false_ne_true otherToken

end Negotiation

end TargetWakeTime
