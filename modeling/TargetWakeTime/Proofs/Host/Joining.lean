import TargetWakeTime.Host.Bus

/-!
Contract: a send that joins the queue makes no difference to those ahead of it.

Owns: that whatever can happen on a channel, and on its bus, happens in the same way if another send
has joined the queue before.

A channel that nobody has, and for which nobody waits, has no step at all; with a send in the queue it
has one. So the step has to be possible beforehand.
-/

namespace TargetWakeTime.Host

namespace Channel

variable {Caller : Type} {c : Channel Caller} {moved : Moved Caller} {now : Nat}
  (caller : Caller) (command : Command) (requested : Option Nat)

/-- A step of the channel, with a send more in the queue. -/
def beside (moved : Moved Caller) : Moved Caller :=
  (moved.1.submit caller command requested, moved.2)

theorem proceed_submit (c : Channel Caller) :
    (c.submit caller command requested).proceed? =
      c.proceed?.map (beside caller command requested) := by
  unfold proceed?
  rw [show (c.submit caller command requested).exchange = c.exchange from rfl]
  cases c.exchange with
  | none => rfl
  | some e =>
      obtain ⟨pending, sequence, attempt, stage⟩ := e
      cases stage with
      | ready =>
          simp only [launch]
          cases pending.command.encode (HostId.of sequence attempt) <;> rfl
      | inHand | waiting | ending => rfl

theorem onward_beside (moved : Moved Caller) :
    onward (beside caller command requested moved) =
      beside caller command requested (onward moved) := by
  obtain ⟨c, signal⟩ := moved
  cases signal with
  | some signal => rfl
  | none =>
      simp only [onward, beside, proceed_submit]
      cases c.proceed? <;> rfl

theorem settle_beside (moved : Moved Caller) :
    settle (beside caller command requested moved) =
      beside caller command requested (settle moved) := by
  rw [settle, onward_beside, onward_beside, settle]

theorem open_submit (opened : c.open? = some moved) :
    (c.submit caller command requested).open? = some (beside caller command requested moved) := by
  obtain ⟨settings, attached, power, sequence, queue, exchange, outstanding, stats⟩ := c
  cases exchange with
  | some e => cases opened
  | none =>
      cases queue with
      | nil => cases opened
      | cons next rest =>
          cases attached with
          | true | false =>
              obtain rfl := Option.some.inj opened
              rfl

theorem open_of_held {e : Exchange Caller} (held : c.exchange = some e) : c.open? = none := by
  rw [open?, held]

theorem resume_submit (c : Channel Caller) :
    (c.submit caller command requested).resume? =
      c.resume?.map (beside caller command requested) := by
  unfold resume?
  rw [show (c.submit caller command requested).exchange = c.exchange from rfl]
  cases c.exchange with
  | none => rfl
  | some e =>
      dsimp only
      split <;> rfl

theorem expire_submit (now : Nat) (c : Channel Caller) :
    (c.submit caller command requested).expire? now =
      (c.expire? now).map (beside caller command requested) := by
  unfold expire?
  rw [show (c.submit caller command requested).exchange = c.exchange from rfl]
  cases c.exchange with
  | none => rfl
  | some e =>
      dsimp only
      split
      · split <;> rfl
      · rfl

/-- Whatever the channel does next, it does with another send in the queue. -/
theorem step_submit (stepped : c.step? now = some moved) :
    (c.submit caller command requested).step? now =
      some (beside caller command requested moved) := by
  obtain ⟨first, found, rfl⟩ := Option.map_eq_some_iff.mp stepped
  suffices begins : (((c.submit caller command requested).open?).or
      (c.submit caller command requested).resume?).or
        ((c.submit caller command requested).expire? now) =
          some (beside caller command requested first) by
    rw [step?, begins, Option.map_some, settle_beside]
  cases held : c.exchange with
  | none =>
      have opened : c.open? = some first := by
        rwa [show c.resume? = none by rw [resume?, held],
          show c.expire? now = none by rw [expire?, held], Option.or_none, Option.or_none] at found
      rw [open_submit caller command requested opened, Option.some_or, Option.some_or]
  | some e =>
      rw [open_of_held held, Option.none_or] at found
      rw [open_of_held (c := c.submit caller command requested) held, Option.none_or, resume_submit,
        expire_submit, ← Option.map_or, found, Option.map_some]

theorem transmitted_submit (now : Nat) (outcome : Except LinkError Unit) (c : Channel Caller) :
    (c.submit caller command requested).transmitted? now outcome =
      (c.transmitted? now outcome).map (beside caller command requested) := by
  unfold transmitted?
  rw [show (c.submit caller command requested).exchange = c.exchange from rfl]
  cases c.exchange with
  | none => rfl
  | some e =>
      dsimp only
      split <;> rfl

theorem receive_submit (r : Response) (c : Channel Caller) :
    (c.submit caller command requested).receive r =
      ((c.receive r).1, (c.receive r).2.submit caller command requested) := by
  unfold receive
  rw [show (c.submit caller command requested).outstanding = c.outstanding from rfl]
  split
  · cases c.outstanding with
    | none => rfl
    | some slot =>
        dsimp only
        split <;> rfl
  · rfl

theorem receiveFrame_submit (frame : List UInt8) (c : Channel Caller) :
    ((c.submit caller command requested).receiveFrame frame).2 =
      (c.receiveFrame frame).2.submit caller command requested := by
  unfold receiveFrame
  split
  · rw [receive_submit]
  · rfl

theorem detach_submit (c : Channel Caller) :
    (c.submit caller command requested).detach =
      c.detach.submit caller command requested := by
  unfold detach hangUp
  rw [show (c.submit caller command requested).unlink.outstanding = c.unlink.outstanding from rfl]
  split
  · split <;> rfl
  · rfl

end Channel

namespace Bus

variable {Caller σ : Type} [Link σ] {b after : Bus Caller σ}
  {completions : List (Completion Caller)} {now : Nat}
  (caller : Caller) (command : Command) (requested : Option Nat)

theorem carry_beside (now : Nat) (link : σ) (moved : Channel.Moved Caller) :
    carry now link (Channel.beside caller command requested moved) =
      ((carry now link moved).1.enqueue caller command requested, (carry now link moved).2) := by
  obtain ⟨channel, signal⟩ := moved
  cases signal with
  | none => rfl
  | some signal =>
      cases signal with
      | done => rfl
      | transmit frame =>
          have settled (taken : Except LinkError Unit) :
              ((channel.submit caller command requested).transmitted? now taken).map Channel.settle =
                ((channel.transmitted? now taken).map Channel.settle).map
                  (Channel.beside caller command requested) := by
            rw [Channel.transmitted_submit, Option.map_map, Option.map_map]
            exact congrArg (Option.map · _)
              (funext (Channel.settle_beside caller command requested))
          simp only [carry, Channel.beside, settled]
          cases (channel.transmitted? now (Link.transmit now frame link).1).map Channel.settle with
          | none => rfl
          | some next =>
              obtain ⟨after, signal⟩ := next
              cases signal with
              | none => rfl
              | some signal => cases signal <;> rfl

/-- Whatever happens next on the bus, it happens with another send in the queue. -/
theorem step_enqueue (stepped : b.step? now = some (after, completions)) :
    (b.enqueue caller command requested).step? now =
      some (after.enqueue caller command requested, completions) := by
  obtain ⟨moved, found, carried⟩ := Option.map_eq_some_iff.mp stepped
  rw [step?, show (b.enqueue caller command requested).channel =
    b.channel.submit caller command requested from rfl,
    Channel.step_submit caller command requested found, Option.map_some,
    show (b.enqueue caller command requested).link = b.link from rfl, carry_beside, carried]

theorem deliver_enqueue (now : Nat) (b : Bus Caller σ) :
    (b.enqueue caller command requested).deliver now =
      (b.deliver now).enqueue caller command requested := by
  have received (frames : List (List UInt8)) (c : Channel Caller) :
      frames.foldl (fun channel frame => (channel.receiveFrame frame).2)
          (c.submit caller command requested) =
        (frames.foldl (fun channel frame => (channel.receiveFrame frame).2) c).submit caller command
          requested := by
    induction frames generalizing c with
    | nil => rfl
    | cons frame rest inductionHypothesis =>
        rw [List.foldl_cons, Channel.receiveFrame_submit, inductionHypothesis, List.foldl_cons]
  exact congrArg (Bus.mk · (Link.arrivals now b.link).2) (received _ b.channel)

omit [Link σ] in
theorem detach_enqueue (b : Bus Caller σ) :
    (b.enqueue caller command requested).detach = b.detach.enqueue caller command requested :=
  congrArg (Bus.mk · b.link) (Channel.detach_submit caller command requested b.channel)

end Bus

end TargetWakeTime.Host
