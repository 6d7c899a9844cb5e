import TargetWakeTime.Proofs.Host.Correlation

/-!
Contract: the sends that found a link, and the sequence numbers they go by.

Owns:
- the sends that took the channel while the link was there, in order, each of them once;
- those among them that have not ended, which are the send that has the channel;
- that sequence numbers go round with the places of these sends.

A send that is turned away for want of a link has no place among them and uses up no number.
-/

namespace TargetWakeTime.Host.Channel

variable {s after : Session} {h : History} {move : Move} {reaction : Reaction} {step : Step}

namespace History

/-- The sends that found a link, in order. -/
def linked (h : History) : List Nat :=
  (h.log.filter (·.before.channel.attached)).filterMap Step.taken?

/-- The sends that found a link and have not ended. -/
def inside (h : History) : List Nat :=
  h.linked.filter fun number => number ∉ h.ended.map (·.1)

/-- A send goes by the sequence number that its place among the sends with a link gives. -/
def Bears (h : History) (number sequence : Nat) : Prop :=
  ∃ place, h.linked[place]? = some number ∧ sequence = place % HostId.maximumSequence + 1

end History

theorem linked_record : (h.record step).linked =
    h.linked ++ if step.before.channel.attached then step.taken?.toList else [] := by
  rw [History.linked, History.record, List.filter_append]
  cases attached : step.before.channel.attached with
  | true =>
      have counts : [step].filter (·.before.channel.attached) = [step] :=
        List.filter_cons_of_pos attached
      rw [counts]
      exact filterMap_concat ..
  | false => simp [History.linked, attached]

/-- A step in which no send takes the channel adds none. -/
theorem linked_record_of_others (others : step.taken? = none) :
    (h.record step).linked = h.linked := by
  rw [linked_record, others]
  simp

theorem linked_record_of_own (own : step.move.isOwn = true) : (h.record step).linked = h.linked :=
  linked_record_of_others (views_of_isOwn own).1

theorem linked_record_of_taken {next : Pending Nat} {rest : List (Pending Nat)}
    (attached : h.session.channel.attached = true)
    (queued : h.session.channel.queue = next :: rest) :
    (h.record ⟨h.session, .take, after, reaction⟩).linked = h.linked ++ [next.caller] := by
  simp [linked_record, attached, Step.taken?, queued]

theorem linked_record_of_unattached (unattached : step.before.channel.attached = false) :
    (h.record step).linked = h.linked := by
  simp [linked_record, unattached]

/-- A send keeps its number. -/
theorem bears_record {number sequence : Nat} (bears : h.Bears number sequence) :
    (h.record step).Bears number sequence := by
  obtain ⟨place, found, rfl⟩ := bears
  refine ⟨place, ?_, rfl⟩
  rw [linked_record, List.getElem?_append_left (List.getElem?_eq_some_iff.mp found).1, found]

theorem Correlated.nodup_linked (correlated : Correlated h) : h.linked.Nodup :=
  (List.filter_sublist.filterMap Step.taken?).nodup (nodup_taken correlated.inOrder)

/-- A send found a link once, so it has one number. -/
theorem sequence_eq_of_bears {number sequence place : Nat} (distinct : h.linked.Nodup)
    (bears : h.Bears number sequence) (found : h.linked[place]? = some number) :
    sequence = place % HostId.maximumSequence + 1 := by
  obtain ⟨other, same, rfl⟩ := bears
  obtain ⟨inside, -⟩ := List.getElem?_eq_some_iff.mp same
  rw [(List.getElem?_inj inside distinct).mp (same.trans found.symm)]

/-- The sends with a link that have not ended are the one that has the channel. -/
theorem Correlated.inside_eq (correlated : Correlated h)
    (entered : ∀ e, h.session.channel.exchange = some e → e.caller ∈ h.linked) :
    h.inside = h.session.channel.exchange.toList.map (·.caller) := by
  have distinct := nodup_taken correlated.inOrder
  have amongTaken : h.linked.Sublist h.taken := List.filter_sublist.filterMap Step.taken?
  have remaining : h.taken.filter (fun number => number ∉ h.ended.map (·.1)) =
      h.session.channel.exchange.toList.map (·.caller) := by
    rw [correlated.oneAtATime] at distinct ⊢
    obtain ⟨-, -, apart⟩ := List.nodup_append.mp distinct
    rw [List.filter_append, List.filter_eq_nil_iff.mpr (by simp), List.nil_append,
      List.filter_eq_self]
    intro number member
    simpa using fun ended => apart number ended number member rfl
  have among : h.inside.Sublist (h.session.channel.exchange.toList.map (·.caller)) :=
    remaining ▸ amongTaken.filter _
  cases found : h.session.channel.exchange with
  | none =>
      rw [found] at among
      exact List.sublist_nil.mp among
  | some e =>
      have member : e.caller ∈ h.inside := by
        have stays : e.caller ∈ h.taken.filter (fun number => number ∉ h.ended.map (·.1)) := by
          rw [remaining, found]
          exact List.mem_singleton_self e.caller
        exact List.mem_filter.mpr ⟨entered e found, (List.mem_filter.mp stays).2⟩
      rw [found] at among
      exact among.eq_of_length_le (List.length_pos_of_mem member)

/-! ### Turns at the channel -/

/-- A send that takes the channel finds the link there. -/
theorem attached_of_taken (possible : s.act? .take = some (after, .quiet)) :
    s.channel.attached = true := by
  obtain ⟨moved, opened, result⟩ := Option.map_eq_some_iff.mp possible
  unfold open? at opened
  split at opened
  case h_1 =>
    dsimp only at opened
    split at opened
    case isTrue attached => exact attached
    case isFalse =>
      cases opened
      cases result
  case h_2 => cases opened

/-- A send that ends as it gets its turn finds no link. -/
theorem unattached_of_turnedAway {signal : Signal Nat}
    (possible : s.act? .take = some (after, .signal signal)) : s.channel.attached = false := by
  obtain ⟨moved, opened, result⟩ := Option.map_eq_some_iff.mp possible
  unfold open? at opened
  split at opened
  case h_1 =>
    dsimp only at opened
    split at opened
    case isTrue =>
      cases opened
      cases result
    case isFalse unattached => exact Bool.eq_false_iff.mpr unattached
  case h_2 => cases opened

/-! ### Sequence numbers -/

/-- How the sends with a link are numbered. -/
structure Numbered (h : History) : Prop where
  next : nextSequence h.session.channel.sequence = h.linked.length % HostId.maximumSequence + 1
  current : ∀ e, h.session.channel.exchange = some e → h.Bears e.caller e.sequence

theorem numbered_start (settings : Settings) :
    Numbered { session := { channel := { settings } } } :=
  ⟨rfl, fun _ found => by cases found⟩

/-- After a number comes the one of the next place. -/
theorem nextSequence_of_place (place : Nat) :
    nextSequence (place % HostId.maximumSequence + 1) =
      (place + 1) % HostId.maximumSequence + 1 := by
  unfold nextSequence HostId.maximumSequence
  split <;> omega

theorem Numbered.entered (numbered : Numbered h) (e : Exchange Nat)
    (found : h.session.channel.exchange = some e) : e.caller ∈ h.linked := by
  obtain ⟨place, there, -⟩ := numbered.current e found
  exact List.mem_of_getElem? there

/-- Only a send that takes the channel gets a number. -/
theorem numbered_of_others (numbered : Numbered h)
    (sameLinked : (h.record step).linked = h.linked)
    (sameSequence : step.after.channel.sequence = h.session.channel.sequence)
    (sameExchange : ∀ e', step.after.channel.exchange = some e' → ∃ e,
      h.session.channel.exchange = some e ∧ e'.caller = e.caller ∧ e'.sequence = e.sequence) :
    Numbered (h.record step) := by
  refine ⟨?_, fun e' found => ?_⟩
  · rw [sameLinked, ← numbered.next]
    exact congrArg nextSequence sameSequence
  · obtain ⟨e, before, sameCaller, sameNumber⟩ := sameExchange e' found
    rw [sameCaller, sameNumber]
    exact bears_record (numbered.current e before)

/-- What is left for an exchange changes neither the send that has it nor its number. -/
theorem exists_of_complete {c : Channel Nat} {slot : Outstanding} {mailbox : Mailbox}
    {e' : Exchange Nat} (found : (c.complete slot mailbox).exchange = some e') :
    ∃ e, c.exchange = some e ∧ e'.caller = e.caller ∧ e'.sequence = e.sequence := by
  obtain ⟨e, before, rfl⟩ := Option.map_eq_some_iff.mp found
  exact ⟨e, before, congrArg (·.caller) (toPending_leave e mailbox), sequence_leave e mailbox⟩

theorem numbered_record (numbered : Numbered h)
    (possible : h.session.act? move = some (after, reaction)) :
    Numbered (h.record ⟨h.session, move, after, reaction⟩) := by
  cases acted possible with
  | @taken next rest free queued =>
      have attached := attached_of_taken possible
      refine ⟨?_, fun e found => ?_⟩
      · rw [linked_record_of_taken attached queued, List.length_append, List.length_singleton,
          ← nextSequence_of_place, ← numbered.next]
        rfl
      · obtain rfl := Option.some.inj found
        refine ⟨h.linked.length, ?_, numbered.next⟩
        rw [linked_record_of_taken attached queued, List.getElem?_concat_length]
  | turnedAway free =>
      have unattached := unattached_of_turnedAway possible
      exact numbered_of_others numbered (linked_record_of_unattached unattached) rfl
        fun e' found => ⟨e', found, rfl, rfl⟩
  | staged own found =>
      refine numbered_of_others numbered (linked_record_of_own own) rfl fun e' moved => ?_
      obtain rfl := Option.some.inj moved
      exact ⟨_, found, rfl, rfl⟩
  | launched found =>
      refine numbered_of_others numbered (linked_record_of_others rfl) rfl fun e' moved => ?_
      obtain rfl := Option.some.inj moved
      exact ⟨_, found, rfl, rfl⟩
  | left =>
      exact numbered_of_others numbered (linked_record_of_others rfl) rfl
        fun e' none => by cases none
  | hungUp | confirmed =>
      exact numbered_of_others numbered (linked_record_of_others rfl) rfl
        fun e' => exists_of_complete
  | submitted | attached | unlinked | unheard | unsolicited | stale =>
      exact numbered_of_others numbered (linked_record_of_others rfl) rfl
        fun e' found => ⟨e', found, rfl, rfl⟩

/-- What a new channel meets and every move of a numbered history preserves is met by all
histories. -/
theorem invariant_of_numbered (invariant : History → Prop) (settings : Settings)
    (start : invariant { session := { channel := { settings } } })
    (kept : ∀ h move after reaction, Correlated h → Numbered h → invariant h →
      h.session.act? move = some (after, reaction) →
      invariant (h.record ⟨h.session, move, after, reaction⟩))
    (moves : List Move) :
    Correlated (history settings moves) ∧ Numbered (history settings moves) ∧
      invariant (history settings moves) := by
  refine invariant_of_act (fun h => Correlated h ∧ Numbered h ∧ invariant h) settings
    ⟨correlated_start settings, numbered_start settings, start⟩ ?_ moves
  intro h move after reaction ⟨correlated, numbered, holds⟩ possible
  exact ⟨correlated_record correlated (acted possible), numbered_record numbered possible,
    kept h move after reaction correlated numbered holds possible⟩

end TargetWakeTime.Host.Channel
