import TargetWakeTime.Proofs.Host.Linked

/-!
Contract: the chip is kept awake exactly while a send uses the link.

Owns:
- the hold of the send that has the channel, which every way out of a send releases once;
- that the chip is kept awake while some send that found a link has not ended, that a slot is
  outstanding only meanwhile, and that there is one hold for each such send.

Nobody else holds the chip awake.
-/

namespace TargetWakeTime.Host.Channel

variable {after : Session} {h : History} {move : Move} {reaction : Reaction}

/-- The send that has the channel holds the chip awake, as did every send before it that found a
link. -/
structure Held (h : History) : Prop where
  depth : h.session.channel.power.depth = h.session.channel.exchange.toList.length
  disables : h.session.channel.power.disables = h.linked.length

/-- A step in which no send takes or leaves the channel changes no hold. -/
theorem held_of_others {step : Step} (held : Held h)
    (sameLinked : (h.record step).linked = h.linked)
    (samePower : step.after.channel.power = h.session.channel.power)
    (sameExchange : step.after.channel.exchange.toList.length =
      h.session.channel.exchange.toList.length) : Held (h.record step) where
  depth := by
    show step.after.channel.power.depth = step.after.channel.exchange.toList.length
    rw [samePower, sameExchange, held.depth]
  disables := by
    rw [sameLinked, ← held.disables]
    exact congrArg PowerSave.disables samePower

theorem length_complete (slot : Outstanding) (mailbox : Mailbox) (c : Channel Nat) :
    (c.complete slot mailbox).exchange.toList.length = c.exchange.toList.length := by
  have sameCallers := congrArg List.length (map_caller_complete slot mailbox c)
  rwa [List.length_map, List.length_map] at sameCallers

/-- A hold is taken with the channel and released on leaving it. -/
theorem held_record (held : Held h) (possible : h.session.act? move = some (after, reaction)) :
    Held (h.record ⟨h.session, move, after, reaction⟩) := by
  cases acted possible with
  | taken free queued =>
      have nobody : h.session.channel.power.depth = 0 := by
        rw [held.depth, free]
        rfl
      refine ⟨congrArg (· + 1) nobody, ?_⟩
      rw [linked_record_of_taken (attached_of_taken possible) queued, List.length_append,
        ← held.disables]
      rfl
  | left found =>
      have one : h.session.channel.power.depth = 1 := by
        rw [held.depth, found]
        rfl
      refine ⟨congrArg (· - 1) one, ?_⟩
      rw [linked_record_of_others rfl, ← held.disables]
      rfl
  | turnedAway =>
      have unattached := unattached_of_turnedAway possible
      exact held_of_others held (linked_record_of_unattached unattached) rfl rfl
  | staged own found =>
      refine held_of_others held (linked_record_of_own own) rfl ?_
      rw [found]
      rfl
  | launched found =>
      refine held_of_others held (linked_record_of_others rfl) rfl ?_
      rw [found]
      rfl
  | hungUp | confirmed =>
      exact held_of_others held (linked_record_of_others rfl) rfl (length_complete ..)
  | submitted | attached | unlinked | unheard | unsolicited | stale =>
      exact held_of_others held (linked_record_of_others rfl) rfl rfl

/-- How the chip is kept awake. -/
structure Awake (h : History) : Prop where
  /-- There is one hold while a send that found a link has not ended, and otherwise none. -/
  depth : h.session.channel.power.depth = if h.inside = [] then 0 else 1
  slot : h.session.channel.outstanding ≠ none → h.session.channel.power.depth = 1
  disables : h.session.channel.power.disables = h.linked.length

/-- Whatever senders, the receive path, the link and the clock do, in whatever order: the chip is
kept awake exactly while a send uses the link. -/
theorem awake_history (settings : Settings) (moves : List Move) :
    Awake (history settings moves) := by
  obtain ⟨correlated, numbered, held⟩ := invariant_of_numbered Held settings ⟨rfl, rfl⟩
    (fun _ _ _ _ _ _ held possible => held_record held possible) moves
  have inside := correlated.inside_eq numbered.entered
  refine ⟨?_, fun occupied => ?_, held.disables⟩
  · rw [held.depth, inside]
    cases (history settings moves).session.channel.exchange <;> simp
  · obtain ⟨slot, outstanding⟩ := Option.ne_none_iff_exists'.mp occupied
    obtain ⟨e, found, -⟩ := correlated.coherent.ownSlot slot outstanding
    rw [held.depth, found]
    rfl

/-- A send that waits while the link is lost keeps the chip awake until it has left. -/
example :
    let h := history {} [.attach, .submit .healthCheck none, .submit .healthCheck none, .take,
      .proceed, .transmitted 0 (.ok ()), .unlink, .hangUp, .resume]
    h.session.channel.power = ⟨1, 1⟩ ∧ (h.extend .proceed).session.channel.power = ⟨0, 1⟩ :=
  ⟨rfl, rfl⟩

end TargetWakeTime.Host.Channel
