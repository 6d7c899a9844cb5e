import TargetWakeTime.Proofs.Host.Framing

/-!
Contract: which octets of a frame decide what the chip reads from it.

Owns:
- how many octets behind the header each message reads;
- that these octets and the declared ones decide the command, whatever follows them;
- that a frame cut to its declared length still gives its command exactly if that length covers what
  the message reads.

The declared length is compared with what is there once, and the message then reads from all of it:
a frame may declare less than its message reads.
-/

namespace TargetWakeTime.Host

/-- Octets behind the header that a message reads. -/
def MessageId.payloadSize : MessageId → Nat
  | healthCheck => 0
  | installAgreement | validateAgreement => Command.agreementSize + 2
  | removeAgreement => 1

namespace Header

/-- A header is read from its own octets alone. -/
theorem decode_eq_ok_iff {frame : List UInt8} {header : Header} {payload : List UInt8} :
    decode frame = .ok (header, payload) ↔
      ∃ octets, frame = octets ++ payload ∧ octets.length = size ∧
        ∀ rest, decode (octets ++ rest) = .ok (header, rest) := by
  constructor
  · intro read
    unfold decode at read
    split at read
    case h_1 m₀ m₁ l₀ l₁ f₀ f₁ v₀ v₁ h₀ h₁ r₀ r₁ rest =>
      obtain ⟨rfl, rfl⟩ := Prod.mk.inj (Except.ok.inj read)
      exact ⟨[m₀, m₁, l₀, l₁, f₀, f₁, v₀, v₁, h₀, h₁, r₀, r₁], rfl, rfl, fun _ => rfl⟩
    case h_2 => cases read
  · rintro ⟨octets, rfl, -, reads⟩
    exact reads payload

/-- What is cut off behind the header, and what follows the cut, is left to the payload. -/
theorem decode_take_append {frame : List UInt8} {header : Header} {payload : List UInt8}
    (read : decode frame = .ok (header, payload)) (count : Nat) (beyond : List UInt8) :
    decode (frame.take (size + count) ++ beyond) = .ok (header, payload.take count ++ beyond) := by
  obtain ⟨octets, rfl, length, reads⟩ := decode_eq_ok_iff.mp read
  rw [← length, List.take_length_add_append, List.append_assoc]
  exact reads _

end Header

namespace Command

/-- An agreement is read from its flow, its length and the octets that it is padded to. -/
theorem decodeAgreement_take (payload : List UInt8) :
    decodeAgreement (payload.take (agreementSize + 2)) = decodeAgreement payload := by
  match payload with
  | [] => rfl
  | [_] => rfl
  | flow :: length :: rest =>
      have short : (rest.take agreementSize).length < agreementSize ↔
          rest.length < agreementSize := by
        rw [List.length_take]
        omega
      simp only [List.take_succ_cons, decodeAgreement, short]
      split
      case isTrue => rfl
      case isFalse =>
        split
        case isTrue => rfl
        case isFalse fits =>
          rw [List.take_take, Nat.min_eq_left (Nat.le_of_not_lt fits)]

/-- A message reads no more of its payload than it needs. -/
theorem ofPayload_take (vif : UInt16) (message : MessageId) (payload : List UInt8) :
    ofPayload vif message (payload.take message.payloadSize) = ofPayload vif message payload := by
  cases message with
  | healthCheck => rfl
  | installAgreement | validateAgreement =>
      simp only [ofPayload, MessageId.payloadSize, decodeAgreement_take]
  | removeAgreement => cases payload <;> rfl

theorem length_of_decodeAgreement {payload : List UInt8} {parts : UInt8 × List UInt8}
    (read : decodeAgreement payload = .ok parts) : agreementSize + 2 ≤ payload.length := by
  unfold decodeAgreement at read
  split at read
  case h_1 flow length rest =>
    split at read
    case isTrue => cases read
    case isFalse complete =>
      simp only [List.length_cons]
      omega
  case h_2 => cases read

/-- A message gives a command of its own kind, and has all the payload it needs. -/
theorem given_of_ofPayload {vif : UInt16} {message : MessageId} {payload : List UInt8}
    {command : Command} (given : ofPayload vif message payload = .ok command) :
    command.message = message ∧ message.payloadSize ≤ payload.length := by
  cases message with
  | healthCheck =>
      obtain rfl := Except.ok.inj given
      exact ⟨rfl, Nat.zero_le _⟩
  | installAgreement | validateAgreement =>
      simp only [ofPayload, bind, Except.bind] at given
      split at given
      case h_1 => cases given
      case h_2 parts read =>
        obtain rfl := Except.ok.inj given
        exact ⟨rfl, length_of_decodeAgreement read⟩
  | removeAgreement =>
      cases payload with
      | nil => cases given
      | cons flow rest =>
          obtain rfl := Except.ok.inj given
          exact ⟨rfl, Nat.succ_le_succ (Nat.zero_le _)⟩

/-- Payloads that begin alike, as far as the message reads, give the same command. -/
theorem ofPayload_congr {vif : UInt16} {message : MessageId} {payload other : List UInt8}
    (same : payload.take message.payloadSize = other.take message.payloadSize) :
    ofPayload vif message payload = ofPayload vif message other := by
  rw [← ofPayload_take, same, ofPayload_take]

/-- The parts that a command is read in. -/
theorem decode_eq_ok_iff {frame : List UInt8} {header : Header} {command : Command} :
    decode frame = .ok (header, command) ↔ ∃ payload,
      Header.decode frame = .ok (header, payload) ∧ header.length.toNat ≤ payload.length ∧
      MessageId.ofCode header.message = .ok command.message ∧
      ofPayload header.vif command.message payload = .ok command := by
  constructor
  · intro read
    simp only [decode, bind, Except.bind] at read
    split at read
    case h_1 => cases read
    case h_2 parts headed =>
      obtain ⟨header', payload⟩ := parts
      dsimp only at read
      split at read
      case isTrue => cases read
      case isFalse complete =>
        split at read
        case h_1 => cases read
        case h_2 message known =>
          split at read
          case h_1 => cases read
          case h_2 command' given =>
            cases read
            obtain ⟨rfl, -⟩ := given_of_ofPayload given
            exact ⟨payload, headed, Nat.le_of_not_lt complete, known, given⟩
  · rintro ⟨payload, headed, complete, known, given⟩
    simp only [decode, bind, Except.bind, headed, if_neg (Nat.not_lt.mpr complete), known, given]
    rfl

variable {frame : List UInt8} {header : Header} {command : Command}

/-- A command is read from the octets that its header declares and its message reads, whatever
follows them. -/
theorem decode_take_append (read : decode frame = .ok (header, command)) {count : Nat}
    (declared : header.length.toNat ≤ count) (needed : command.message.payloadSize ≤ count)
    (beyond : List UInt8) :
    decode (frame.take (Header.size + count) ++ beyond) = .ok (header, command) := by
  obtain ⟨payload, headed, complete, known, given⟩ := decode_eq_ok_iff.mp read
  have enough := (given_of_ofPayload given).2
  have within : (payload.take count).length = min count payload.length := List.length_take
  refine decode_eq_ok_iff.mpr
    ⟨_, Header.decode_take_append headed count beyond, ?_, known, ?_⟩
  · rw [List.length_append, within]
    omega
  · rw [← given]
    apply ofPayload_congr
    rw [List.take_append_of_le_length (by rw [within]; omega), List.take_take,
      Nat.min_eq_left needed]

/-- No octet counts that is neither declared nor read by the message. Cut to its declared length, a
frame still gives its command exactly if it declares all that its message reads. -/
theorem decode_cut_iff_declared (read : decode frame = .ok (header, command)) :
    (∀ beyond, decode (frame.take (Header.size +
        max header.length.toNat command.message.payloadSize) ++ beyond) = .ok (header, command)) ∧
    (decode (frame.take (Header.size + header.length.toNat)) = .ok (header, command) ↔
      command.message.payloadSize ≤ header.length.toNat) := by
  refine ⟨decode_take_append read (Nat.le_max_left ..) (Nat.le_max_right ..),
    fun cut => ?_, fun covers => ?_⟩
  · obtain ⟨payload, headed, -, -, -⟩ := decode_eq_ok_iff.mp read
    obtain ⟨rest, headed', -, -, given⟩ := decode_eq_ok_iff.mp cut
    have same := Header.decode_take_append headed header.length.toNat []
    rw [List.append_nil, headed', List.append_nil] at same
    obtain rfl := (Prod.mk.inj (Except.ok.inj same)).2
    exact Nat.le_trans (given_of_ofPayload given).2 (List.length_take_le ..)
  · have cut := decode_take_append read (Nat.le_refl _) covers []
    rwa [List.append_nil] at cut

theorem decode_cut_iff_declared_removal :
    let frame : List UInt8 := [0x29, 0, 1, 0, 1, 0, 0, 0, 0x10, 0, 0, 0, 5, 9]
    let header : Header := ⟨MessageId.removeAgreement.code, 1, requestFlags, 0, .of 1 0⟩
    decode frame = .ok (header, .remove 0 5) ∧
      decode (frame.take (Header.size + 1)) = .ok (header, .remove 0 5) := by
  intro frame header
  have read : decode frame = .ok (header, .remove 0 5) := rfl
  exact ⟨read, (decode_cut_iff_declared read).2.mpr (by decide)⟩

/-- A removal that declares no payload: its flow is read from beyond what was declared. -/
theorem decode_beyond_declared :
    let frame : List UInt8 := [0x29, 0, 0, 0, 1, 0, 0, 0, 0x10, 0, 0, 0, 5]
    let header : Header := ⟨MessageId.removeAgreement.code, 0, requestFlags, 0, .of 1 0⟩
    decode frame = .ok (header, .remove 0 5) ∧
      decode (frame.take (Header.size + header.length.toNat)) =
        .error (.malformed .missingFlow) :=
  ⟨rfl, rfl⟩

end Command

end TargetWakeTime.Host
