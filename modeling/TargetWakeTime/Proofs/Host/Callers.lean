import TargetWakeTime.Host.Bus

/-!
Contract: those whose sends on a channel have not ended.

Owns:
- the callers of a channel, in the order in which they are served;
- that nobody gets lost: what comes in from the link changes no caller, and a step takes out only the
  first one, and tells it how its send ended.

A step ends at most one send, since it yields at most one signal.
-/

namespace TargetWakeTime.Host

namespace Channel

variable {Caller : Type} {c : Channel Caller} {moved : Moved Caller} {now : Nat}

/-- Those whose sends have not ended, whoever has the channel first. -/
def callers (c : Channel Caller) : List Caller :=
  c.exchange.toList.map (·.caller) ++ c.queue.map (·.caller)

/-- The one whose send ends with a signal. -/
def Signal.ended? : Signal Caller → Option Caller
  | .transmit _ => none
  | .done caller _ => some caller

/-- Whoever is not among the callers any more has been told. -/
def Keeps (c : Channel Caller) (moved : Moved Caller) : Prop :=
  (moved.2.bind Signal.ended?).toList ++ moved.1.callers = c.callers

theorem callers_submit (caller : Caller) (command : Command) (requested : Option Nat)
    (c : Channel Caller) : (c.submit caller command requested).callers = c.callers ++ [caller] := by
  simp [callers, submit]

theorem map_caller_complete (slot : Outstanding) (mailbox : Mailbox) (c : Channel Caller) :
    (c.complete slot mailbox).exchange.toList.map (·.caller) =
      c.exchange.toList.map (·.caller) := by
  cases found : c.exchange with
  | none => simp [complete, found]
  | some e =>
      have same : (e.leave mailbox).caller = e.caller := by
        unfold Exchange.leave
        split <;> rfl
      simp [complete, found, same]

@[simp] theorem callers_complete (slot : Outstanding) (mailbox : Mailbox) (c : Channel Caller) :
    (c.complete slot mailbox).callers = c.callers :=
  congrArg (· ++ c.queue.map (·.caller)) (map_caller_complete slot mailbox c)

theorem callers_detach (c : Channel Caller) : c.detach.callers = c.callers := by
  unfold detach hangUp
  split
  · split
    · exact callers_complete ..
    · rfl
  · rfl

theorem callers_receive (r : Response) (c : Channel Caller) :
    (c.receive r).2.callers = c.callers := by
  unfold receive
  split
  · dsimp only
    split
    · split
      · exact callers_complete ..
      · rfl
    · rfl
  · rfl

theorem callers_receiveFrame (frame : List UInt8) (c : Channel Caller) :
    (c.receiveFrame frame).2.callers = c.callers := by
  unfold receiveFrame
  split
  · exact callers_receive ..
  · rfl

/-! ### Steps -/

theorem keeps_open (opened : c.open? = some moved) : c.Keeps moved := by
  unfold open? at opened
  split at opened
  case h_1 next rest free queued =>
    dsimp only at opened
    split at opened
    · obtain rfl := Option.some.inj opened
      simp [Keeps, callers, free, queued]
    · obtain rfl := Option.some.inj opened
      simp [Keeps, callers, Signal.ended?, free, queued]
  case h_2 => cases opened

theorem keeps_proceed (proceeded : c.proceed? = some moved) : c.Keeps moved := by
  unfold proceed? at proceeded
  split at proceeded
  case h_1 => cases proceeded
  case h_2 e found =>
    split at proceeded
    case h_1 =>
      obtain rfl := Option.some.inj proceeded
      unfold launch
      dsimp only
      split <;> simp [Keeps, callers, Signal.ended?, found]
    case h_2 =>
      obtain rfl := Option.some.inj proceeded
      simp [Keeps, callers, finish, Signal.ended?, found]
    all_goals cases proceeded

theorem keeps_transmitted {outcome : Except LinkError Unit}
    (transmitted : c.transmitted? now outcome = some moved) : c.Keeps moved := by
  unfold transmitted? at transmitted
  split at transmitted
  case h_1 => cases transmitted
  case h_2 e found =>
    split at transmitted
    case h_1 | h_2 =>
      obtain rfl := Option.some.inj transmitted
      simp [Keeps, callers, found]
    case h_3 => cases transmitted

theorem keeps_resume (resumed : c.resume? = some moved) : c.Keeps moved := by
  unfold resume? at resumed
  split at resumed
  case h_1 => cases resumed
  case h_2 e found =>
    split at resumed
    case h_1 | h_2 =>
      obtain rfl := Option.some.inj resumed
      simp [Keeps, callers, found]
    case h_3 => cases resumed

theorem keeps_expire (expired : c.expire? now = some moved) : c.Keeps moved := by
  unfold expire? at expired
  split at expired
  case h_1 => cases expired
  case h_2 e found =>
    split at expired
    case h_1 =>
      split at expired
      case isTrue =>
        obtain rfl := Option.some.inj expired
        dsimp only
        split <;> simp [Keeps, callers, found]
      case isFalse => cases expired
    case h_2 => cases expired

theorem Keeps.onward (keeps : c.Keeps moved) : c.Keeps (onward moved) := by
  obtain ⟨after, signal⟩ := moved
  cases signal with
  | some signal => exact keeps
  | none =>
      have same : after.callers = c.callers := keeps
      unfold Channel.onward
      dsimp only
      cases proceeded : after.proceed? with
      | none => exact keeps
      | some next => exact (keeps_proceed proceeded).trans same

theorem Keeps.settle (keeps : c.Keeps moved) : c.Keeps (settle moved) :=
  keeps.onward.onward

theorem keeps_step (stepped : c.step? now = some moved) : c.Keeps moved := by
  obtain ⟨first, found, rfl⟩ := Option.map_eq_some_iff.mp stepped
  refine Keeps.settle ?_
  rcases Option.or_eq_some_iff.mp found with begun | ⟨-, expired⟩
  · rcases Option.or_eq_some_iff.mp begun with opened | ⟨-, resumed⟩
    · exact keeps_open opened
    · exact keeps_resume resumed
  · exact keeps_expire expired

end Channel

namespace Bus

open Channel (Keeps)

theorem callers_enqueue {Caller σ : Type} (caller : Caller) (command : Command) (wait : Option Nat)
    (b : Bus Caller σ) :
    (b.enqueue caller command wait).channel.callers = b.channel.callers ++ [caller] :=
  Channel.callers_submit ..

variable {Caller σ : Type} [Link σ] {b after : Bus Caller σ}
  {completions : List (Completion Caller)} {now : Nat}

theorem callers_deliver (now : Nat) (b : Bus Caller σ) :
    (b.deliver now).channel.callers = b.channel.callers := by
  unfold deliver
  dsimp only
  generalize (Link.arrivals now b.link).1 = frames
  generalize b.channel = channel
  induction frames generalizing channel with
  | nil => rfl
  | cons frame rest inductionHypothesis =>
      exact (inductionHypothesis _).trans (Channel.callers_receiveFrame frame channel)

/-- What a step of the channel comes to on the bus: nobody's send ends, or that of the first one. -/
theorem callers_carry {c : Channel Caller} {moved : Channel.Moved Caller} (keeps : c.Keeps moved)
    (now : Nat) (link : σ) :
    ((carry now link moved).2 = [] ∧ (carry now link moved).1.channel.callers = c.callers) ∨
      ∃ completion, (carry now link moved).2 = [completion] ∧
        completion.caller :: (carry now link moved).1.channel.callers = c.callers := by
  obtain ⟨channel, signal⟩ := moved
  cases signal with
  | none => exact .inl ⟨rfl, keeps⟩
  | some signal =>
      cases signal with
      | done caller outcome => exact .inr ⟨⟨caller, outcome⟩, rfl, keeps⟩
      | transmit frame =>
          have same : channel.callers = c.callers := keeps
          simp only [carry]
          split
          case h_1 settled caller outcome found =>
            obtain ⟨next, taken, made⟩ := Option.map_eq_some_iff.mp found
            have kept := (Channel.keeps_transmitted taken).settle
            rw [made] at kept
            exact .inr ⟨⟨caller, outcome⟩, rfl, kept.trans same⟩
          case h_2 settled signal notDone found =>
            obtain ⟨next, taken, made⟩ := Option.map_eq_some_iff.mp found
            have kept := (Channel.keeps_transmitted taken).settle
            rw [made] at kept
            refine .inl ⟨rfl, Eq.trans ?_ (kept.trans same)⟩
            -- A frame would be dropped here, and ends nobody's send.
            cases signal with
            | none => rfl
            | some signal =>
                cases signal with
                | transmit => rfl
                | done caller outcome => exact absurd rfl (notDone caller outcome)
          case h_3 => exact .inl ⟨rfl, same⟩

/-- A step of the bus ends nobody's send, or that of the first one, who is told. -/
theorem callers_step (stepped : b.step? now = some (after, completions)) :
    (completions = [] ∧ after.channel.callers = b.channel.callers) ∨
      ∃ completion, completions = [completion] ∧
        completion.caller :: after.channel.callers = b.channel.callers := by
  obtain ⟨moved, found, carried⟩ := Option.map_eq_some_iff.mp stepped
  have kept := callers_carry (Channel.keeps_step found) now b.link
  rwa [carried] at kept

end Bus

end TargetWakeTime.Host
