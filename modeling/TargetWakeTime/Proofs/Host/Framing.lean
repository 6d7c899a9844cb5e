import Mathlib.Data.List.TakeDrop
import TargetWakeTime.Host.Command
import TargetWakeTime.Host.Response

/-!
Contract: frames between host and chip read back as what was written.

Owns:
- which commands have a frame, and that the length in its header is that of its payload;
- that the chip reads a command, and the header it was sent under, from the command's frame, and
  refuses every frame that was cut short;
- what the host reads from a response's frame for a payload of any length, and which payloads come
  back shorter than they were.

Whatever follows a frame is ignored by both readers.
-/

namespace TargetWakeTime.Host

namespace Command

/-- The agreement that a command carries. -/
def agreement : Command → List UInt8
  | install _ _ agreement | validate _ _ agreement => agreement
  | healthCheck | remove .. => []

/-- Whether a command has a frame. -/
def Fits (c : Command) : Prop := c.agreement.length ≤ agreementSize

instance (c : Command) : Decidable c.Fits := inferInstanceAs (Decidable (_ ≤ _))

theorem payloadLength_le (c : Command) : c.payloadLength ≤ 2 + agreementSize := by
  cases c with
  | healthCheck => exact Nat.zero_le _
  | install | validate => exact Nat.le_refl _
  | remove => exact Nat.succ_le_succ (Nat.zero_le _)

/-- A command that fits has a payload. -/
theorem exists_payload {c : Command} (fits : c.Fits) : ∃ payload, c.payload = .ok payload := by
  cases c with
  | healthCheck => exact ⟨[], rfl⟩
  | install _ flow agreement | validate _ flow agreement => exact ⟨_, if_pos fits⟩
  | remove _ flow => exact ⟨[flow], rfl⟩

/-- An agreement is padded to its size whatever its own length is. -/
theorem length_of_agreementPayload {flow : UInt8} {agreement payload : List UInt8}
    (made : agreementPayload flow agreement = .ok payload) :
    payload.length = 2 + agreementSize := by
  unfold agreementPayload at made
  split at made
  case isFalse => cases made
  case isTrue fits =>
    obtain rfl := Except.ok.inj made
    simp only [List.length_cons, List.length_append, List.length_replicate]
    omega

/-- The length that is declared before there is a payload is the length of the payload. -/
theorem length_of_payload {c : Command} {payload : List UInt8} (made : c.payload = .ok payload) :
    payload.length = c.payloadLength := by
  cases c with
  | healthCheck | remove =>
      obtain rfl := Except.ok.inj made
      rfl
  | install | validate => exact length_of_agreementPayload made

theorem decodeAgreement_of_agreementPayload {flow : UInt8} {agreement payload : List UInt8}
    (made : agreementPayload flow agreement = .ok payload) (rest : List UInt8) :
    decodeAgreement (payload ++ rest) = .ok (flow, agreement) := by
  unfold agreementPayload at made
  split at made
  case isFalse => cases made
  case isTrue fits =>
    obtain rfl := Except.ok.inj made
    have octet : (UInt8.ofNat agreement.length).toNat = agreement.length := by
      rw [UInt8.toNat_ofNat']
      exact Nat.mod_eq_of_lt (Nat.lt_of_le_of_lt fits (by decide))
    have padded : ¬ (agreement ++ (List.replicate (agreementSize - agreement.length) 0 ++
        rest)).length < agreementSize := by
      simp only [List.length_append, List.length_replicate]
      omega
    simp only [List.cons_append, List.append_assoc, decodeAgreement, if_neg padded, octet,
      if_neg (Nat.not_lt.mpr fits), List.take_left]

/-- The payload of a command gives that command again. -/
theorem ofPayload_of_payload {c : Command} {payload : List UInt8} (made : c.payload = .ok payload)
    (rest : List UInt8) : ofPayload c.vif c.message (payload ++ rest) = .ok c := by
  cases c with
  | healthCheck => rfl
  | install vif flow agreement | validate vif flow agreement =>
      simp only [ofPayload, message, decodeAgreement_of_agreementPayload made rest]
      rfl
  | remove vif flow =>
      obtain rfl := Except.ok.inj made
      rfl

theorem fits_of_payload {c : Command} {payload : List UInt8} (made : c.payload = .ok payload) :
    c.Fits := by
  cases c with
  | healthCheck | remove => exact Nat.zero_le _
  | install _ flow agreement | validate _ flow agreement =>
      change agreementPayload flow agreement = _ at made
      unfold agreementPayload at made
      split at made
      case isTrue fits => exact fits
      case isFalse => cases made

/-- The frame of a command is its header with its payload behind it. -/
theorem encode_eq_ok_iff {c : Command} {hostId : HostId} {frame : List UInt8} :
    c.encode hostId = .ok frame ↔
      ∃ payload, c.payload = .ok payload ∧
        frame = (c.requestHeader hostId).encode ++ payload := by
  cases made : c.payload with
  | error error => simp [encode, made]
  | ok payload => simp [encode, made, eq_comm]

/-- The header of a command declares the length of the command's payload. -/
theorem length_requestHeader {c : Command} {payload : List UInt8} (made : c.payload = .ok payload)
    (hostId : HostId) : (c.requestHeader hostId).length.toNat = payload.length := by
  rw [length_of_payload made, requestHeader, UInt16.toNat_ofNat']
  exact Nat.mod_eq_of_lt (Nat.lt_of_le_of_lt c.payloadLength_le (by decide))

/-- The chip reads a command from the command's header and payload, whatever follows them. -/
theorem decode_of_payload {c : Command} {payload : List UInt8} (made : c.payload = .ok payload)
    (hostId : HostId) (rest : List UInt8) :
    decode ((c.requestHeader hostId).encode ++ payload ++ rest) =
      .ok (c.requestHeader hostId, c) := by
  have complete : ¬ (payload ++ rest).length <
      (c.requestHeader hostId).length.toNat := by
    rw [length_requestHeader made, List.length_append]
    omega
  rw [List.append_assoc, decode, Header.decode_encode]
  simp only [bind, Except.bind, if_neg complete, pure, Except.pure]
  simp only [requestHeader, MessageId.ofCode_code, ofPayload_of_payload made rest]

/-- A command that fits has a frame, from which the chip reads its header and the command, whatever
follows the frame. -/
theorem exists_frame {c : Command} (fits : c.Fits) (hostId : HostId) :
    ∃ frame, c.encode hostId = .ok frame ∧ ∀ rest,
      decode (frame ++ rest) = .ok (c.requestHeader hostId, c) := by
  obtain ⟨payload, made⟩ := exists_payload fits
  exact ⟨_, encode_eq_ok_iff.mpr ⟨payload, made, rfl⟩, decode_of_payload made hostId⟩

/-- The frame of a command begins with a header that carries its identifier. -/
theorem exists_header {c : Command} {hostId : HostId} {frame : List UInt8}
    (made : c.encode hostId = .ok frame) :
    ∃ header rest, Header.decode frame = .ok (header, rest) ∧ header.hostId = hostId := by
  obtain ⟨payload, -, rfl⟩ := encode_eq_ok_iff.mp made
  exact ⟨_, payload, Header.decode_encode _ payload, rfl⟩

/-- A frame that was cut within its header is refused for the header, one that was cut behind it
for the payload. -/
theorem decode_take {header : Header} {payload : List UInt8}
    (declared : header.length.toNat = payload.length) {count : Nat}
    (cut : count < Header.size + payload.length) :
    decode ((header.encode ++ payload).take count) =
      .error (.malformed (if count < Header.size then .headerTruncated count
        else .payloadTruncated (count - Header.size) payload.length)) := by
  by_cases within : count < Header.size
  case pos =>
    have length : ((header.encode ++ payload).take count).length = count := by
      rw [List.length_take, List.length_append, Header.length_encode]
      omega
    rw [if_pos within, decode, Header.decode_short (by rwa [length]), length]
    rfl
  case neg =>
    have whole : (header.encode ++ payload).take count =
        header.encode ++ payload.take (count - Header.size) := by
      rw [List.take_append, Header.length_encode,
        List.take_of_length_le (by rw [Header.length_encode]; omega)]
    have length : (payload.take (count - Header.size)).length = count - Header.size := by
      rw [List.length_take]
      omega
    have short : count - Header.size < payload.length := by omega
    rw [if_neg within, whole, decode, Header.decode_encode]
    simp only [bind, Except.bind, length, declared, if_pos short]
    rfl

/-- A command has a frame exactly if its agreement fits. The chip reads the command from that frame,
whatever follows it, under a header that says what was sent and how long it is, and refuses
whatever ends before the frame does. -/
theorem decode_inverts_encode (hostId : HostId) (c : Command) :
    ((∃ frame, c.encode hostId = .ok frame) ↔ c.agreement.length ≤ 20) ∧
    ∀ frame, c.encode hostId = .ok frame →
      (∃ header : Header,
        header.message = c.message.code ∧ header.vif = c.vif ∧ header.hostId = hostId ∧
        header.flags = requestFlags ∧ header.length.toNat + Header.size = frame.length ∧
        ∀ rest, decode (frame ++ rest) = .ok (header, c)) ∧
      ∀ shorter, shorter <+: frame → shorter ≠ frame →
        ∃ error, decode shorter = .error error := by
  refine ⟨⟨fun ⟨frame, made⟩ => ?_, fun fits => ?_⟩, fun frame made => ?_⟩
  · obtain ⟨payload, paid, -⟩ := encode_eq_ok_iff.mp made
    exact fits_of_payload paid
  · obtain ⟨frame, made, -⟩ := exists_frame fits hostId
    exact ⟨frame, made⟩
  · obtain ⟨payload, paid, rfl⟩ := encode_eq_ok_iff.mp made
    have declared := length_requestHeader paid hostId
    refine ⟨⟨_, rfl, rfl, rfl, rfl, ?_, decode_of_payload paid hostId⟩,
      fun shorter begins differs => ?_⟩
    · rw [declared, List.length_append, Header.length_encode, Nat.add_comm]
    · have cut : shorter.length < Header.size + payload.length := by
        rw [← Header.length_encode (c.requestHeader hostId), ← List.length_append]
        exact Nat.lt_of_le_of_ne begins.length_le fun same => differs (begins.eq_of_length same)
      rw [List.prefix_iff_eq_take.mp begins]
      exact ⟨_, decode_take declared cut⟩

end Command

namespace Response

theorem toNat_declaredLength (payload : List UInt8) :
    (declaredLength payload).toNat = (statusSize + payload.length) % 65536 :=
  UInt16.toNat_ofNat'

/-- A response reads back from its own frame, whatever follows, as far as the length that was
written reaches. That length is never beyond the frame, but it may be below the status. -/
theorem decode_encode_of_declared (r : Response) (rest : List UInt8) :
    decode (r.encode ++ rest) =
      if (declaredLength r.payload).toNat < statusSize then
        .error (.malformed (.responseTruncated (statusSize + (r.payload ++ rest).length)
          (declaredLength r.payload).toNat))
      else .ok
        { r with
          header := { r.header with length := declaredLength r.payload }
          payload := r.payload.take ((declaredLength r.payload).toNat - statusSize) } := by
  have width : (LittleEndian.encode 4 r.status.toNat).length = statusSize :=
    LittleEndian.length_encode 4 r.status.toNat
  have body : (LittleEndian.encode 4 r.status.toNat ++ (r.payload ++ rest)).length =
      statusSize + (r.payload ++ rest).length := by
    rw [List.length_append, width]
  have within : (declaredLength r.payload).toNat ≤ statusSize + r.payload.length :=
    Nat.le_trans (Nat.le_of_eq (toNat_declaredLength _)) (Nat.mod_le _ _)
  have status : UInt32.ofNat (LittleEndian.decode (LittleEndian.encode 4 r.status.toNat)) =
      r.status := by
    rw [LittleEndian.decode_encode_of_lt r.status.toNat_lt, UInt32.ofNat_toNat]
  simp only [encode, List.append_assoc, decode, Header.decode_encode, bind, Except.bind, body]
  by_cases below : (declaredLength r.payload).toNat < statusSize
  case pos =>
    rw [if_pos below, if_pos (.inl below)]
    rfl
  case neg =>
    have complete : ¬ ((declaredLength r.payload).toNat < statusSize ∨
        statusSize + (r.payload ++ rest).length < (declaredLength r.payload).toNat) := by
      rw [List.length_append]
      omega
    rw [if_neg below, if_neg complete]
    simp only [pure, Except.pure, List.take_left' width, List.drop_left' width, status]
    rw [List.take_append_of_le_length (by omega)]

/-- A response whose length fits its header reads back whole. -/
theorem decode_encode {r : Response} (fits : statusSize + r.payload.length < 65536)
    (rest : List UInt8) :
    decode (r.encode ++ rest) =
      .ok { r with header := { r.header with length := declaredLength r.payload } } := by
  have declared : (declaredLength r.payload).toNat = statusSize + r.payload.length := by
    rw [toNat_declaredLength, Nat.mod_eq_of_lt fits]
  rw [decode_encode_of_declared, declared, if_neg (by omega), Nat.add_sub_cancel_left,
    List.take_length]

/-- Whether a response that its own frame gives back at all comes back as it was, up to the length
that its header holds. -/
def Unaltered (r : Response) : Prop :=
  ∀ back, decode r.encode = .ok back →
    back.header.message = r.header.message ∧ back.header.flags = r.header.flags ∧
    back.header.vif = r.header.vif ∧ back.header.hostId = r.header.hostId ∧
    back.status = r.status ∧ back.payload = r.payload

/-- A response comes back as it was exactly if its payload is shorter than 65536 octets, or what is
left of its length at 16 bits is too small for the status and the frame is refused. -/
theorem unaltered_iff_length (r : Response) :
    r.Unaltered ↔ r.payload.length < 65536 ∨ 65532 ≤ r.payload.length % 65536 := by
  have read := decode_encode_of_declared r []
  rw [List.append_nil, toNat_declaredLength, statusSize] at read
  unfold Unaltered
  rw [read]
  by_cases below : (4 + r.payload.length) % 65536 < 4
  case pos =>
    simp only [if_pos below, reduceCtorEq, false_implies, implies_true, true_iff]
    omega
  case neg =>
    simp only [if_neg below, Except.ok.injEq, forall_eq', true_and, List.take_eq_self_iff]
    omega

/-- The declared length wraps at 16 bits. A response comes back as it was exactly if it is refused
or its payload is shorter than 65536 octets; it is refused exactly if what is left of its length is
too small for the status, which never happens up to 65531 octets. -/
theorem decode_inverts_encode_iff (r : Response) :
    (r.Unaltered ↔ r.payload.length < 65536 ∨ 65532 ≤ r.payload.length % 65536) ∧
    ((∃ back, decode r.encode = .ok back) ↔ r.payload.length % 65536 < 65532) := by
  refine ⟨unaltered_iff_length r, ?_⟩
  have read := decode_encode_of_declared r []
  rw [List.append_nil, toNat_declaredLength, statusSize] at read
  rw [read]
  by_cases below : (4 + r.payload.length) % 65536 < 4
  case pos =>
    rw [if_pos below]
    exact ⟨fun ⟨_, impossible⟩ => (nomatch impossible), fun fits => by omega⟩
  case neg =>
    rw [if_neg below]
    exact ⟨fun _ => by omega, fun _ => ⟨_, rfl⟩⟩

/-- The shortest payload that comes back shorter: what is left of its length is that of none. -/
theorem not_unaltered_wrapped :
    ¬ Unaltered
      { header :=
          { message := MessageId.removeAgreement.code
            length := 0
            flags := confirmFlags
            vif := 7
            hostId := .ofNat 0x1234 }
        status := 0
        payload := List.replicate 65536 7 } := by
  rw [unaltered_iff_length, List.length_replicate]
  decide

@[simp] theorem isConfirm_confirm (request : Header) (status : UInt32) (payload : List UInt8) :
    (confirm request status payload).isConfirm = true := by
  simp [isConfirm, confirm, Header.isConfirm, confirmFlags]

/-- The chip's confirms carry the length of their frame from the start. -/
theorem decode_confirm (request : Header) (status : UInt32) :
    decode (confirm request status []).encode = .ok (confirm request status []) := by
  have back := decode_encode (r := confirm request status []) (by simp [confirm, statusSize]) []
  rwa [List.append_nil] at back

end Response

end TargetWakeTime.Host
