import TargetWakeTime.Proofs.Agreement.LocalRequest
import TargetWakeTime.Proofs.Host.Callers
import TargetWakeTime.Proofs.Interface.Assembly

/-!
Contract: calls that install an agreement for the same flow without asking the access point.

Owns:
- turns of an interface with its channel and its chip, in any order, with any number of calls under
  way;
- the book of the calls for one flow: when each passed its checks, when it ended, and whether it was
  granted;
- that no call passes its checks once another one was granted, as long as the flow stays installed, so
  that only calls which overlap in time can both be granted.

A call checks whether the flow is installed, and then waits for the chip. What it finds afterwards it
does not check again.
-/

namespace TargetWakeTime.Assembly

/-! ### Turns -/

/-- What can happen next. -/
inductive Turn where
  | move (move : Move)
  /-- The chip is made to behave otherwise. -/
  | chip (change : Host.Chip → Host.Chip)
  | attach
  | detach

def Turn.apply (a : Assembly) : Turn → Assembly
  | move given => given.apply a
  | chip change => { a with bus := { a.bus with link := change a.bus.link } }
  | attach => { a with bus := a.bus.attach }
  | detach => { a with bus := a.bus.detach }

/-- The agreement that a sender wants to install for a flow without asking the access point. -/
def Sender.rival? (flow : UInt8) : Sender → Option Agreement
  | .call (.install agreement) => if agreement.flow = flow then some agreement else none
  | .call (.negotiate ..) | .call (.uninstall _) | .worker => none

/-- The agreements for a flow whose calls are under way, in the order in which the channel serves
them. -/
def rivals (flow : UInt8) (a : Assembly) : List Agreement :=
  a.bus.channel.callers.filterMap (·.rival? flow)

/-- The agreement of a call for a flow that passes its checks. -/
def entrant? (flow : UInt8) (request : SetupRequest) (a : Assembly) : Option Agreement :=
  match a.interface.configure request with
  | .ok (call, _) => (Sender.call call).rival? flow
  | .error _ => none

/-- How the calls for a flow end that end in a step of the channel: whether each is granted. -/
def verdicts (flow : UInt8) (a : Assembly) : List Bool :=
  match a.bus.step? a.now with
  | none => []
  | some (_, completions) =>
      completions.filterMap fun completion =>
        (completion.caller.rival? flow).map fun _ => completion.outcome.isOk

variable {a : Assembly} {flow : UInt8}

theorem rivals_ask (sender : Sender) (command : Host.Command) (a : Assembly) :
    (a.ask sender command).rivals flow = a.rivals flow ++ (sender.rival? flow).toList := by
  rw [rivals, ask, Host.Bus.callers_enqueue, List.filterMap_append]
  cases rival : sender.rival? flow <;> simp [rivals, rival]

/-- A call that passes its checks is the only thing that a configuration adds. -/
theorem rivals_configure (flow : UInt8) (request : SetupRequest) (a : Assembly) :
    (Move.apply a (.configure request)).rivals flow =
      a.rivals flow ++ (a.entrant? flow request).toList := by
  rw [Move.apply, entrant?]
  cases a.interface.configure request with
  | error error => exact (List.append_nil _).symm
  | ok passed => exact rivals_ask ..

theorem interface_configure (request : SetupRequest) (a : Assembly) :
    (Move.apply a (.configure request)).interface = a.interface := by
  rw [Move.apply]
  split <;> rfl

theorem rival?_eq_some_iff {sender : Sender} {agreement : Agreement} :
    sender.rival? flow = some agreement ↔
      sender = .call (.install agreement) ∧ agreement.flow = flow := by
  unfold Sender.rival?
  split
  case h_1 wanted =>
    split
    case isTrue same =>
      constructor
      · intro found
        obtain rfl := Option.some.inj found
        exact ⟨rfl, same⟩
      · rintro ⟨⟨⟩, -⟩
        rfl
    case isFalse other =>
      constructor
      · intro found
        cases found
      · rintro ⟨⟨⟩, same⟩
        exact absurd same other
  all_goals simp

/-- Whoever passes the checks finds the flow not installed. -/
theorem not_isInstalled_of_entrant {request : SetupRequest} {agreement : Agreement}
    (enters : a.entrant? flow request = some agreement) : a.isInstalled flow = false := by
  unfold entrant? at enters
  cases passed : a.interface.configure request with
  | error error =>
      rw [passed] at enters
      cases enters
  | ok asked =>
      obtain ⟨call, command⟩ := asked
      rw [passed] at enters
      obtain ⟨same, sameFlow⟩ := rival?_eq_some_iff.mp enters
      obtain rfl := Sender.call.inj same
      cases Interface.configured passed with
      | installs mode built free =>
          rw [isInstalled, ← sameFlow, (SetupRequest.legible_build built).2.1]
          exact free

theorem bus_settle (exchange : Option (Host.Channel.Exchange Sender))
    (completion : Host.Bus.Completion Sender) (a : Assembly) :
    (a.settle exchange completion).bus = a.bus := by
  unfold settle
  dsimp only
  split
  · split <;> rfl
  · rfl

theorem interface_settle (exchange : Option (Host.Channel.Exchange Sender))
    (completion : Host.Bus.Completion Sender) (a : Assembly) :
    (a.settle exchange completion).interface =
      (completion.caller.answered (completion.outcome.map fun _ => ())).apply a.interface := by
  unfold settle
  dsimp only
  split
  · split <;> rfl
  · rfl

theorem isInstalled_complete_install (agreement : Agreement) (i : Interface) :
    (i.complete (.install agreement) (.ok ())).2.negotiation.own.isInstalled agreement.flow =
      true := by
  show ((i.negotiation.forceInstalled agreement).own).isInstalled agreement.flow = true
  simp [Negotiation.forceInstalled, Negotiation.commitInstall, Negotiation.withOwn,
    Requester.isInstalled, Requester.setInstalled]

/-- A step on the channel ends nobody's send, or that of the first one. If that is a rival who is
granted, the flow is installed. -/
theorem rivals_step (flow : UInt8) (a : Assembly) :
    (a.verdicts flow = [] ∧ (Move.apply a .step).rivals flow = a.rivals flow) ∨
      ∃ granted, a.verdicts flow = [granted] ∧
        (Move.apply a .step).rivals flow = (a.rivals flow).tail ∧
        (granted = true → (Move.apply a .step).isInstalled flow = true) := by
  rw [verdicts, Move.apply]
  cases stepped : a.bus.step? a.now with
  | none => exact .inl ⟨rfl, rfl⟩
  | some result =>
      obtain ⟨bus, completions⟩ := result
      rcases Host.Bus.callers_step stepped with ⟨rfl, same⟩ | ⟨completion, rfl, ended⟩
      · refine .inl ⟨rfl, ?_⟩
        exact congrArg (·.filterMap (·.rival? flow)) same
      · have before : a.rivals flow =
            (completion.caller.rival? flow).toList ++ bus.channel.callers.filterMap (·.rival? flow) := by
          rw [rivals, ← ended]
          cases rival : completion.caller.rival? flow <;> simp [rival]
        have after : (({ a with bus } : Assembly).settle a.bus.channel.exchange completion).rivals
            flow = bus.channel.callers.filterMap (·.rival? flow) := by
          rw [rivals, bus_settle]
        cases rival : completion.caller.rival? flow with
        | none =>
            rw [rival] at before
            exact .inl ⟨by simp [rival], after.trans before.symm⟩
        | some agreement =>
            rw [rival] at before
            refine .inr ⟨completion.outcome.isOk, by simp [rival], ?_, ?_⟩
            · rw [before]
              exact after
            · intro granted
              obtain ⟨caller, rfl⟩ := rival?_eq_some_iff.mp rival
              show (Assembly.settle _ completion _).interface.negotiation.own.isInstalled _ = true
              rw [interface_settle, caller]
              cases answer : completion.outcome with
              | error error =>
                  rw [answer] at granted
                  cases granted
              | ok response => exact isInstalled_complete_install agreement a.interface

/-- Whether a turn can change who is under way. -/
def Turn.isContest : Turn → Bool
  | move (.configure _) | move .step => true
  | _ => false

/-- All other turns leave the rivals as they are. -/
theorem rivals_of_not_isContest {turn : Turn} (other : turn.isContest = false) (a : Assembly) :
    (turn.apply a).rivals flow = a.rivals flow := by
  have quiet {bus : Host.Bus Sender Host.Chip} (same : bus.channel.callers = a.bus.channel.callers) :
      bus.channel.callers.filterMap (·.rival? flow) = a.rivals flow :=
    congrArg (·.filterMap (·.rival? flow)) same
  cases turn with
  | chip change | attach => rfl
  | detach => exact quiet (Host.Channel.callers_detach a.bus.channel)
  | move given =>
      cases given with
      | configure | step => cases other
      | act action independent => rfl
      | deliver => exact quiet (Host.Bus.callers_deliver a.now a.bus)
      | wait time =>
          rw [Turn.apply, Move.apply]
          split <;> rfl
      | work =>
          rw [Turn.apply, Move.apply]
          split
          · rfl
          · exact (rivals_ask ..).trans (List.append_nil _)
          · rfl
      | teardown torn =>
          rw [Turn.apply, Move.apply]
          split
          case h_1 call command interface begun =>
            obtain ⟨rfl, -, -⟩ := Interface.teardown_asks begun
            exact (rivals_ask ..).trans (List.append_nil _)
          case h_2 => rfl

/-! ### Calls -/

/-- A call to install an agreement without asking the access point. -/
structure Call where
  agreement : Agreement
  /-- The time at which it passed its checks. -/
  begun : Nat
  /-- The time at which it ended, and whether it was granted. -/
  ended : Option (Nat × Bool) := none
deriving DecidableEq, Repr

namespace Call

def granted (call : Call) : Bool := call.ended.any (·.2)

/-- A call begins before another one ends. -/
def Before (x y : Call) : Prop := ∀ last ∈ y.ended, x.begun < last.1

/-- Two calls are under way at the same time. -/
def Overlaps (x y : Call) : Prop := x.Before y ∧ y.Before x

/-- Of the calls that are under way, the one that began first ends. -/
def endFirst (time : Nat) (granted : Bool) : List Call → List Call
  | [] => []
  | call :: rest =>
      match call.ended with
      | none => { call with ended := some (time, granted) } :: rest
      | some _ => call :: endFirst time granted rest

/-- The agreements of the calls that are under way. -/
def underWay (calls : List Call) : List Agreement :=
  calls.filterMap fun call => if call.ended.isNone then some call.agreement else none

variable {calls : List Call} {time : Nat} {granted : Bool}

/-- Every call is as before, or ends now. -/
theorem mem_endFirst {call : Call} (member : call ∈ endFirst time granted calls) :
    call ∈ calls ∨ ∃ earlier ∈ calls, call = { earlier with ended := some (time, granted) } := by
  induction calls with
  | nil => cases member
  | cons first rest inductionHypothesis =>
      unfold endFirst at member
      split at member
      · rcases List.mem_cons.mp member with same | later
        · exact .inr ⟨first, List.mem_cons_self, same⟩
        · exact .inl (List.mem_cons_of_mem _ later)
      · rcases List.mem_cons.mp member with same | later
        · exact .inl (same ▸ List.mem_cons_self)
        · rcases inductionHypothesis later with kept | ⟨earlier, found, same⟩
          · exact .inl (List.mem_cons_of_mem _ kept)
          · exact .inr ⟨earlier, List.mem_cons_of_mem _ found, same⟩

theorem underWay_endFirst (time : Nat) (granted : Bool) (calls : List Call) :
    underWay (endFirst time granted calls) = (underWay calls).tail := by
  induction calls with
  | nil => rfl
  | cons first rest inductionHypothesis =>
      unfold endFirst
      split
      case h_1 under => simp [underWay, under]
      case h_2 last closed =>
        have skip (others : List Call) : underWay (first :: others) = underWay others := by
          simp [underWay, closed]
        rw [skip, skip, inductionHypothesis]

end Call

/-- A whole with the book of the calls for a flow, and the number of the turn. -/
structure Contest where
  whole : Assembly
  time : Nat
  calls : List Call

namespace Contest

variable {flow : UInt8} {c : Contest}

/-- The calls that are under way at the start have begun before. -/
def start (flow : UInt8) (a : Assembly) : Contest where
  whole := a
  time := 1
  calls := (a.rivals flow).map fun agreement => { agreement, begun := 0 }

def next (flow : UInt8) (c : Contest) (turn : Turn) : Contest where
  whole := turn.apply c.whole
  time := c.time + 1
  calls :=
    match turn with
    | .move (.configure request) =>
        c.calls ++ (c.whole.entrant? flow request).toList.map fun agreement =>
          { agreement, begun := c.time }
    | .move .step =>
        (c.whole.verdicts flow).foldl (fun calls granted => Call.endFirst c.time granted calls)
          c.calls
    | _ => c.calls

/-- What holds of the book at any time while the flow, once installed, stays installed. -/
structure Orderly (flow : UInt8) (c : Contest) : Prop where
  /-- The calls under way are those that the channel knows of, in the same order. -/
  underWay : Call.underWay c.calls = c.whole.rivals flow
  begun : ∀ call ∈ c.calls, call.begun < c.time
  installed : ∀ call ∈ c.calls, call.granted = true → c.whole.isInstalled flow = true
  /-- No call passes its checks after one was granted. -/
  first : ∀ call ∈ c.calls, call.granted = true → ∀ rival ∈ c.calls, rival.Before call

/-- As long as nobody was granted, only the calls under way and their beginnings matter. -/
theorem orderly_of_ungranted (underWay : Call.underWay c.calls = c.whole.rivals flow)
    (begun : ∀ call ∈ c.calls, call.begun < c.time)
    (ungranted : ∀ call ∈ c.calls, call.granted = false) : c.Orderly flow where
  underWay := underWay
  begun := begun
  installed call member granted := Bool.noConfusion ((ungranted call member).symm.trans granted)
  first call member granted := Bool.noConfusion ((ungranted call member).symm.trans granted)

theorem orderly_start (flow : UInt8) (a : Assembly) : (start flow a).Orderly flow := by
  have fresh : ∀ call ∈ (start flow a).calls, call.begun = 0 ∧ call.granted = false := by
    intro call member
    obtain ⟨agreement, -, rfl⟩ := List.mem_map.mp member
    exact ⟨rfl, rfl⟩
  refine orderly_of_ungranted ?_ ?_ fun call member => (fresh call member).2
  · show Call.underWay ((a.rivals flow).map _) = a.rivals flow
    rw [Call.underWay, List.filterMap_map]
    exact List.filterMap_some
  · intro call member
    rw [(fresh call member).1]
    exact Nat.one_pos

/-- The book stays orderly in a turn that leaves the calls as they are. -/
theorem Orderly.next_of_kept (orderly : c.Orderly flow) {turn : Turn}
    (kept : (c.next flow turn).calls = c.calls)
    (rivals : (turn.apply c.whole).rivals flow = c.whole.rivals flow)
    (stays : c.whole.isInstalled flow = true → (turn.apply c.whole).isInstalled flow = true) :
    (c.next flow turn).Orderly flow where
  underWay := by
    rw [kept, orderly.underWay]
    exact rivals.symm
  begun call member := Nat.lt_succ_of_lt (orderly.begun call (kept ▸ member))
  installed call member granted := stays (orderly.installed call (kept ▸ member) granted)
  first := by
    rw [kept]
    exact orderly.first

theorem Orderly.next_configure (orderly : c.Orderly flow) (request : SetupRequest) :
    (c.next flow (.move (.configure request))).Orderly flow := by
  have added := rivals_configure flow request c.whole
  have interface := interface_configure request c.whole
  cases enters : c.whole.entrant? flow request with
  | none =>
      rw [enters] at added
      refine orderly.next_of_kept ?_ (added.trans (List.append_nil _)) ?_
      · simp [next, enters]
      · exact fun installed => (congrArg (·.negotiation.own.isInstalled flow) interface).trans installed
  | some agreement =>
      rw [enters] at added
      have calls : (c.next flow (.move (.configure request))).calls =
          c.calls ++ [{ agreement, begun := c.time }] := by simp [next, enters]
      -- Whoever enters finds the flow free, so that nobody can have been granted before.
      have free : c.whole.isInstalled flow = false := not_isInstalled_of_entrant enters
      have ungranted : ∀ call ∈ c.calls, call.granted = false := fun call member =>
        Bool.eq_false_iff.mpr fun granted =>
          Bool.noConfusion (free.symm.trans (orderly.installed call member granted))
      refine orderly_of_ungranted ?_ ?_ ?_
      · rw [calls, Call.underWay, List.filterMap_append]
        show Call.underWay c.calls ++ [agreement] =
          (Move.apply c.whole (.configure request)).rivals flow
        rw [orderly.underWay, added]
        rfl
      · rw [calls, List.forall_mem_append, List.forall_mem_singleton]
        exact ⟨fun call member => Nat.lt_succ_of_lt (orderly.begun call member), Nat.lt_succ_self _⟩
      · rw [calls, List.forall_mem_append, List.forall_mem_singleton]
        exact ⟨ungranted, rfl⟩

theorem Orderly.next_step (orderly : c.Orderly flow)
    (stays : c.whole.isInstalled flow = true →
      (Move.apply c.whole .step).isInstalled flow = true) :
    (c.next flow (.move .step)).Orderly flow := by
  rcases rivals_step flow c.whole with ⟨verdicts, rivals⟩ | ⟨granted, verdicts, rivals, installs⟩
  · refine orderly.next_of_kept ?_ rivals stays
    simp [next, verdicts]
  · have calls : (c.next flow (.move .step)).calls = Call.endFirst c.time granted c.calls := by
      simp [next, verdicts]
    have begunBefore : ∀ rival ∈ Call.endFirst c.time granted c.calls,
        ∃ earlier ∈ c.calls, rival.begun = earlier.begun := by
      intro rival member
      rcases Call.mem_endFirst member with earlier | ⟨earlier, found, rfl⟩
      · exact ⟨rival, earlier, rfl⟩
      · exact ⟨earlier, found, rfl⟩
    refine ⟨?underWay, ?begun, ?installed, ?first⟩
    case underWay =>
      rw [calls, Call.underWay_endFirst, orderly.underWay]
      exact rivals.symm
    case begun =>
      rw [calls]
      intro call member
      obtain ⟨earlier, found, same⟩ := begunBefore call member
      rw [same]
      exact Nat.lt_succ_of_lt (orderly.begun earlier found)
    case installed =>
      rw [calls]
      intro call member isGranted
      rcases Call.mem_endFirst member with earlier | ⟨earlier, found, rfl⟩
      · exact stays (orderly.installed call earlier isGranted)
      · exact installs isGranted
    case first =>
      rw [calls]
      intro call member isGranted rival rivalMember
      obtain ⟨earlierRival, rivalFound, sameBegun⟩ := begunBefore rival rivalMember
      rcases Call.mem_endFirst member with earlier | ⟨earlier, found, rfl⟩
      · intro last ended
        rw [sameBegun]
        exact orderly.first call earlier isGranted earlierRival rivalFound last ended
      · intro last ended
        obtain rfl := Option.some.inj ended
        rw [sameBegun]
        exact orderly.begun earlierRival rivalFound

theorem Orderly.next (orderly : c.Orderly flow) {turn : Turn}
    (stays : c.whole.isInstalled flow = true → (turn.apply c.whole).isInstalled flow = true) :
    (c.next flow turn).Orderly flow := by
  by_cases contest : turn.isContest = true
  · cases turn with
    | move given =>
        cases given with
        | configure request => exact orderly.next_configure request
        | step => exact orderly.next_step stays
        | act | teardown | work | deliver | wait => cases contest
    | chip | attach | detach => cases contest
  · have other : turn.isContest = false := Bool.eq_false_iff.mpr contest
    refine orderly.next_of_kept ?_ (rivals_of_not_isContest other c.whole) stays
    cases turn with
    | move given =>
        cases given with
        | configure | step => cases other
        | act | teardown | work | deliver | wait => rfl
    | chip | attach | detach => rfl

theorem Orderly.run (orderly : c.Orderly flow) {turns : List Turn}
    (stays : ∀ step ∈ Runs.steps Turn.apply c.whole turns,
      step.1.isInstalled flow = true → (step.2.apply step.1).isInstalled flow = true) :
    (turns.foldl (Contest.next flow) c).Orderly flow := by
  induction turns generalizing c with
  | nil => exact orderly
  | cons turn rest inductionHypothesis =>
      have first := stays (c.whole, turn) List.mem_cons_self
      exact inductionHypothesis (orderly.next first)
        fun step member => stays step (List.mem_cons_of_mem _ member)

end Contest

/-- At most one of several is granted if and only if no two of them are. -/
theorem Call.countP_granted_le_one_iff (calls : List Call) :
    calls.countP Call.granted ≤ 1 ↔
      calls.Pairwise fun x y => ¬ (x.granted = true ∧ y.granted = true) := by
  induction calls with
  | nil => simp
  | cons first rest inductionHypothesis =>
      rw [List.pairwise_cons, ← inductionHypothesis, List.countP_cons]
      cases granted : first.granted with
      | false => simp
      | true =>
          have nobody : rest.countP Call.granted = 0 ↔ ∀ call ∈ rest, ¬ call.granted = true :=
            List.countP_eq_zero
          simp only [if_true, true_and]
          constructor
          · intro few
            have zero : rest.countP Call.granted = 0 := by omega
            exact ⟨nobody.mp zero, by omega⟩
          · rintro ⟨others, -⟩
            exact Nat.le_of_eq (congrArg (· + 1) (nobody.mpr others))

/-- While a flow, once installed, stays installed, at most one of the calls that install it without
asking is granted if and only if no two calls that overlap are. Once one is granted, no other one passes
its checks. The calls in the book are those of the channel: the ones under way in it are the ones that
the channel has not ended. -/
theorem oneGranted_iff_noneOverlap (flow : UInt8) (a : Assembly) (turns : List Turn)
    (stays : ∀ step ∈ Runs.steps Turn.apply a turns,
      step.1.isInstalled flow = true → (step.2.apply step.1).isInstalled flow = true) :
    let contest := turns.foldl (Contest.next flow) (.start flow a)
    (contest.calls.countP Call.granted ≤ 1 ↔
        contest.calls.Pairwise fun x y => x.Overlaps y → ¬ (x.granted = true ∧ y.granted = true)) ∧
      (∀ call ∈ contest.calls, call.granted = true → ∀ rival ∈ contest.calls, rival.Before call) ∧
      Call.underWay contest.calls = contest.whole.rivals flow := by
  intro contest
  have orderly : contest.Orderly flow := (Contest.orderly_start flow a).run stays
  refine ⟨?_, orderly.first, orderly.underWay⟩
  rw [Call.countP_granted_le_one_iff]
  constructor
  · intro oneGranted
    refine oneGranted.imp ?_
    intro x y apart _
    exact apart
  · intro noneOverlap
    refine noneOverlap.imp_of_mem fun {x y} inX inY apart both => ?_
    exact apart ⟨orderly.first y inY both.2 x inX, orderly.first x inX both.1 y inY⟩ both

/-- A request to install an agreement for flow 0, with service periods of this many microseconds. -/
def forcedRequest (duration : UInt32) : SetupRequest :=
  { flow := 0, interval := .explicit 50000 1, duration, mode := .forceInstall }

/-- A command goes to the chip and is answered after a millisecond. -/
def answeredAt (time : Nat) : List Turn :=
  [.move .step, .move (.wait time), .move .deliver, .move .step]

/-- A station that nothing has happened to. -/
def freshStation : Assembly := start {} {} (.new 1 ⟨2, 0, 0, 0, 0, 9⟩ .station)

/-- Two calls are under way at once. The chip refuses the first one's agreement and takes the second
one's, so that only that one is granted. -/
theorem oneGranted_iff_noneOverlap_oneRefused :
    let turns := [.move (.configure (forcedRequest 1024)), .move (.configure (forcedRequest 512)),
      .chip (Host.Chip.fail 22)] ++ answeredAt 1 ++ answeredAt 2
    let contest := turns.foldl (Contest.next 0) (.start 0 freshStation)
    contest.whole.isInstalled 0 = true ∧
      (∃ first second, contest.calls = [first, second] ∧ first.Overlaps second ∧
        second.granted = true) ∧
      contest.calls.countP Call.granted ≤ 1 := by
  intro turns contest
  have known := oneGranted_iff_noneOverlap 0 freshStation turns (by decide +kernel)
  have book : contest.calls.map (fun call => (call.begun, call.ended)) =
      [(1, some (7, false)), (2, some (11, true))] := by decide +kernel
  obtain ⟨first, others, calls, bookFirst, bookOthers⟩ := List.map_eq_cons_iff.mp book
  obtain ⟨second, nobody, rfl, bookSecond, bookNobody⟩ := List.map_eq_cons_iff.mp bookOthers
  obtain rfl := List.map_eq_nil_iff.mp bookNobody
  obtain ⟨begunFirst, endedFirst⟩ := Prod.mk.inj bookFirst
  obtain ⟨begunSecond, endedSecond⟩ := Prod.mk.inj bookSecond
  have overlap : first.Overlaps second := by
    simp [Call.Overlaps, Call.Before, begunFirst, endedFirst, begunSecond, endedSecond]
  have refused : first.granted = false := by simp [Call.granted, endedFirst]
  have granted : second.granted = true := by simp [Call.granted, endedSecond]
  refine ⟨by decide +kernel, ⟨first, second, calls, overlap, granted⟩, known.1.mpr ?_⟩
  show contest.calls.Pairwise _
  rw [calls, List.pairwise_pair]
  exact fun _ both => Bool.noConfusion (refused.symm.trans both.1)

/-- Two calls for a flow pass their checks before the chip has answered either. Both are granted, and
the second one's agreement takes the place of the first one's. -/
theorem not_oneGranted_besideEachOther :
    ¬ ∀ (flow : UInt8) (a : Assembly) (turns : List Turn), a.isInstalled flow = false →
      (∀ step ∈ Runs.steps Turn.apply a turns,
        step.1.isInstalled flow = true → (step.2.apply step.1).isInstalled flow = true) →
      (turns.foldl (Contest.next flow) (.start flow a)).calls.countP Call.granted ≤ 1 := by
  intro holds
  have few := holds 0 freshStation
    ([.move (.configure (forcedRequest 1024)), .move (.configure (forcedRequest 512))] ++
      answeredAt 1 ++ answeredAt 2) (by decide +kernel) (by decide +kernel)
  revert few
  decide +kernel

end TargetWakeTime.Assembly
