import TargetWakeTime.Proofs.Host.Framing
import TargetWakeTime.Proofs.Host.Linked

/-!
Contract: which confirms can answer which sends, over any number of sends.

Owns:
- the frames that sends transmitted and the confirms that were accepted for them;
- that all frames of a send carry the sequence number of its place among the sends with a link, and
  that no other number is accepted for it;
- that the confirm of an earlier send is accepted for a later one only if a whole number of rounds
  of the sequence numbers lies between them.

What a frame carries is read from its octets, as the chip reads it.
-/

namespace TargetWakeTime.Host.Channel

variable {s after : Session} {h : History} {move : Move} {reaction : Reaction} {step : Step}
  {number : Nat} {frame : List UInt8} {r : Response}

/-! ### Views of a history -/

/-- The frame that is handed to the link in a step, and the send it is for. -/
def Step.transmitted? (step : Step) : Option (Nat × List UInt8) :=
  match step.reaction, step.before.channel.exchange with
  | .signal (.transmit frame), some e => some (e.caller, frame)
  | _, _ => none

/-- The response that is accepted in a step, and the send it is accepted for. -/
def Step.accepted? (step : Step) : Option (Nat × Response) :=
  match step.move, step.reaction, step.before.channel.exchange with
  | .receive r, .answered (.ok ()), some e => some (e.caller, r)
  | _, _, _ => none

namespace History

/-- The frames that were handed to the link, in order. -/
def transmitted (h : History) : List (Nat × List UInt8) := h.log.filterMap Step.transmitted?

/-- The responses that were accepted, in order. -/
def accepted (h : History) : List (Nat × Response) := h.log.filterMap Step.accepted?

end History

@[simp] theorem transmitted_record :
    (h.record step).transmitted = h.transmitted ++ step.transmitted?.toList :=
  filterMap_concat ..

@[simp] theorem accepted_record :
    (h.record step).accepted = h.accepted ++ step.accepted?.toList :=
  filterMap_concat ..

/-! ### Single steps -/

theorem encode_of_launched {e : Exchange Nat} (found : s.channel.exchange = some e)
    (possible : s.act? .proceed = some (after, .signal (.transmit frame))) :
    e.command.encode (HostId.of e.sequence e.attempt) = .ok frame := by
  obtain ⟨same, current, step⟩ := advanced rfl possible
  obtain rfl := Option.some.inj (found.symm.trans current)
  cases step with
  | launched _ made => exact made

/-- A frame that is handed to the link carries the number of the send that has the channel. -/
theorem decode_of_transmitted? (coherent : s.Coherent)
    (possible : s.act? move = some (after, reaction))
    (transmitted : Step.transmitted? ⟨s, move, after, reaction⟩ = some (number, frame)) :
    ∃ e header rest, s.channel.exchange = some e ∧ e.caller = number ∧
      Header.decode frame = .ok (header, rest) ∧ header.hostId.sequence.val = e.sequence := by
  unfold Step.transmitted? at transmitted
  split at transmitted
  case h_1 frame' e isSignal found =>
    cases isSignal
    cases transmitted
    cases acted possible with
    | launched same =>
        obtain rfl := Option.some.inj (found.symm.trans same)
        obtain ⟨header, rest, read, hostId⟩ :=
          Command.exists_header (encode_of_launched found possible)
        refine ⟨e, header, rest, found, rfl, read, ?_⟩
        rw [hostId, val_sequence_of e.attempt (coherent.numbered e found).2.2]
  case h_2 => cases transmitted

theorem accepted?_of_exchange {e : Exchange Nat} (found : s.channel.exchange = some e) :
    Step.accepted? ⟨s, .receive r, after, .answered (.ok ())⟩ = some (e.caller, r) := by
  rw [Step.accepted?]
  simp only [found]

/-- A response that is accepted confirms the command of the send that has the channel. -/
theorem confirms_of_accepted? (coherent : s.Coherent) (step : Acted s move after reaction)
    (accepted : Step.accepted? ⟨s, move, after, reaction⟩ = some (number, r)) :
    ∃ e, s.channel.exchange = some e ∧ e.caller = number ∧ s.Confirms e r := by
  unfold Step.accepted? at accepted
  split at accepted
  case h_1 r' e isReceive isOk found =>
    cases isReceive
    cases isOk
    cases accepted
    cases step with
    | confirmed _ confirms outstanding _ answered =>
        obtain ⟨same, current, sameMessage, sameSequence⟩ := coherent.ownSlot _ outstanding
        obtain rfl := Option.some.inj (found.symm.trans current)
        exact ⟨e, found, rfl,
          (answeredBy_iff (coherent.current e found) sameMessage sameSequence confirms).mp answered⟩
  case h_2 => cases accepted

/-- A confirm for a send that waits is accepted. -/
theorem accepted?_of_answered? (coherent : s.Coherent) (step : Acted s move after reaction)
    (answered : Step.answered? ⟨s, move, after, reaction⟩ = some (number, r)) :
    Step.accepted? ⟨s, move, after, reaction⟩ = some (number, r) := by
  obtain ⟨slot, outstanding, listening, matched⟩ := coherent.exists_slot_of_answered? answered
  unfold Step.answered? at answered
  split at answered
  case h_1 r' e isReceive found =>
    cases isReceive
    split at answered
    case isTrue both =>
      cases answered
      cases step with
      | unsolicited event => cases event.symm.trans both.2.1
      | stale _ unmatched => cases (unmatched slot outstanding listening).symm.trans matched
      | confirmed => exact accepted?_of_exchange found
      | staged own => cases own
    case isFalse => cases answered
  case h_2 => cases answered

/-! ### Histories -/

/-- What frames and confirms carry, send by send. -/
structure Traced (h : History) : Prop where
  transmitted : ∀ number frame, (number, frame) ∈ h.transmitted → ∃ header rest,
    Header.decode frame = .ok (header, rest) ∧ h.Bears number header.hostId.sequence.val
  accepted : ∀ number r, (number, r) ∈ h.accepted → h.Bears number r.header.hostId.sequence.val
  answered : ∀ number r, (number, r) ∈ h.answered → (number, r) ∈ h.accepted

theorem traced_start (settings : Settings) : Traced { session := { channel := { settings } } } where
  transmitted _ _ member := by cases member
  accepted _ _ member := by cases member
  answered _ _ member := by cases member

theorem traced_record (coherent : h.session.Coherent) (numbered : Numbered h) (traced : Traced h)
    (possible : h.session.act? move = some (after, reaction)) :
    Traced (h.record ⟨h.session, move, after, reaction⟩) := by
  refine ⟨fun number frame member => ?_, fun number r member => ?_, fun number r member => ?_⟩
  · rw [transmitted_record, List.mem_append, Option.mem_toList] at member
    rcases member with earlier | new
    · obtain ⟨header, rest, read, bears⟩ := traced.transmitted number frame earlier
      exact ⟨header, rest, read, bears_record bears⟩
    · obtain ⟨e, header, rest, found, rfl, read, sequence⟩ :=
        decode_of_transmitted? coherent possible new
      exact ⟨header, rest, read, sequence ▸ bears_record (numbered.current e found)⟩
  · rw [accepted_record, List.mem_append, Option.mem_toList] at member
    rcases member with earlier | new
    · exact bears_record (traced.accepted number r earlier)
    · obtain ⟨e, found, rfl, -, -, sequence⟩ := confirms_of_accepted? coherent (acted possible) new
      exact sequence ▸ bears_record (numbered.current e found)
  · rw [answered_record, List.mem_append, Option.mem_toList] at member
    rw [accepted_record, List.mem_append, Option.mem_toList]
    exact member.imp (traced.answered number r) (accepted?_of_answered? coherent (acted possible))

/-- What the place of a send among those that found a link, counted from 0, says about its frames
and about the confirms that can answer it. -/
structure RoundByRound (h : History) : Prop where
  distinct : h.linked.Nodup
  /-- Only a send that found a link transmits. -/
  linked : ∀ number frame, (number, frame) ∈ h.transmitted → number ∈ h.linked
  /-- All frames of a send carry the number of its place. -/
  carried : ∀ place number frame, h.linked[place]? = some number →
    (number, frame) ∈ h.transmitted → ∃ header rest, Header.decode frame = .ok (header, rest) ∧
      header.hostId.sequence.val = place % HostId.maximumSequence + 1
  /-- A send that ends with an answer of the chip ends with a response that was accepted for it. -/
  resolved : ∀ number outcome, (number, outcome) ∈ h.ended → fromChip outcome = true →
    ∃ r, (number, r) ∈ h.accepted ∧ outcome = outcomeOf r
  /-- A response with the identifier of some frame of a send is accepted for no other send but one
  that is a whole number of rounds away. -/
  echoed : ∀ place other number sender frame header rest r, h.linked[place]? = some number →
    h.linked[other]? = some sender → (sender, frame) ∈ h.transmitted →
    Header.decode frame = .ok (header, rest) → r.header.hostId = header.hostId →
    (number, r) ∈ h.accepted → place % HostId.maximumSequence = other % HostId.maximumSequence

/-- Whatever senders, the receive path, the link and the clock do, in whatever order and for however
long: confirms of old commands answer no new ones within a round of the sequence numbers. -/
theorem roundByRound_history (settings : Settings) (moves : List Move) :
    RoundByRound (history settings moves) := by
  obtain ⟨correlated, -, traced⟩ := invariant_of_numbered Traced settings (traced_start settings)
    (fun _ _ _ _ correlated numbered traced possible =>
      traced_record correlated.coherent numbered traced possible) moves
  generalize history settings moves = h at correlated traced ⊢
  have distinct := correlated.nodup_linked
  have carried (place number frame) (found : h.linked[place]? = some number)
      (member : (number, frame) ∈ h.transmitted) : ∃ header rest,
        Header.decode frame = .ok (header, rest) ∧
          header.hostId.sequence.val = place % HostId.maximumSequence + 1 := by
    obtain ⟨header, rest, read, bears⟩ := traced.transmitted number frame member
    exact ⟨header, rest, read, sequence_eq_of_bears distinct bears found⟩
  refine ⟨distinct, ?linked, carried, ?resolved, ?echoed⟩
  case linked =>
    intro number frame member
    obtain ⟨-, -, -, place, found, -⟩ := traced.transmitted number frame member
    exact List.mem_of_getElem? found
  case resolved =>
    intro number outcome member answered
    have seen : (number, outcome) ∈ h.answered.map (fun a => (a.1, outcomeOf a.2)) := by
      rw [correlated.answered]
      exact List.mem_append_left _ (List.mem_filter.mpr ⟨member, answered⟩)
    obtain ⟨⟨sender, r⟩, came, same⟩ := List.mem_map.mp seen
    cases same
    exact ⟨r, traced.answered sender r came, rfl⟩
  case echoed =>
    intro place other number sender frame header rest r found sent member read echo accepted
    obtain ⟨header', rest', read', sequence⟩ := carried other sender frame sent member
    cases read.symm.trans read'
    have sameSequence := sequence_eq_of_bears distinct (traced.accepted number r accepted) found
    rw [echo, sequence] at sameSequence
    exact (Nat.succ.inj sameSequence).symm

/-- The send in between finds no link and uses up no number. The late confirm of the first send does
not answer the last one. -/
example :
    let request (sequence : Nat) : Header :=
      ⟨MessageId.healthCheck.code, 0, requestFlags, 0, .of sequence 0⟩
    let r (sequence : Nat) := Response.confirm (request sequence) 0 []
    let h := history { maximumAttempts := 1 } [.attach, .submit .healthCheck none, .take, .proceed,
      .transmitted 0 (.ok ()), .expire 1000, .proceed, .unlink, .submit .healthCheck none, .take,
      .attach, .submit .healthCheck none, .take, .proceed, .transmitted 1000 (.ok ()),
      .receive (r 1), .receive (r 2), .resume, .proceed]
    h.linked = [0, 2] ∧ h.accepted = [(2, r 2)] ∧ h.ended =
      [(0, .error .timeout), (1, .error .noTransport), (2, .ok (r 2))] :=
  ⟨rfl, rfl, rfl⟩

end TargetWakeTime.Host.Channel
