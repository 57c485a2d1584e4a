import MqttWire.Frame
import MqttWire.Proofs.Body

/-! # Wire forms of packets

A wire form is one way to put a packet into bytes: a first byte, the numeral of
the remaining length, and a body spelled by one of the packet's sequences of
segments. Decoding succeeds on exactly the bytes of wire forms, the bytes
determine the form, and encoding puts out the canonical one.
-/

namespace MqttWire

namespace Packet

/-- Header of the packet. -/
def header : Packet → FixedHeader
  | .connect packet => packet.header
  | .connack packet => packet.header
  | .publish packet => packet.header
  | .subscribe packet => packet.header
  | .suback packet => packet.header
  | .disconnect packet => packet.header

/-- The body in the order of its writer. -/
def segments : Packet → List Segment
  | .connect packet => packet.segments
  | .connack packet => packet.segments
  | .publish packet => packet.segments
  | .subscribe packet => packet.segments
  | .suback packet => packet.segments
  | .disconnect packet => packet.segments

/-- The sequences of segments that stand for the packet. -/
def IsForm : Packet → List Segment → Prop
  | .disconnect packet, segments => packet.IsForm segments
  | packet, segments => segments = packet.segments

/-- What the writer and the reader check of single fields. -/
def IsAdmissible : Packet → Prop
  | .connect packet => packet.clientId.utf8ByteSize ≤ maxClientIdLength
  | .publish packet => packet.packetId ≠ 0
  | _ => True

theorem isForm_segments (packet : Packet) : packet.IsForm packet.segments := by
  cases packet with
  | disconnect packet => exact packet.isForm_segments
  | _ => rfl

theorem type_header (packet : Packet) : packet.header.type = packet.type := by
  cases packet <;> rfl

theorem remainingLength_header (packet : Packet) :
    packet.header.remainingLength = packet.remainingLength := by
  cases packet <;> rfl

/-! ## Writing -/

theorem measures_segments (packet : Packet) :
    (writtenSegments packet.segments).Measures packet.remainingLength := by
  cases packet with
  | connect packet => exact packet.body_eq ▸ packet.measures_body
  | connack packet => exact packet.measures_body
  | publish packet => exact packet.measures_body
  | subscribe packet => exact packet.measures_body
  | suback packet => exact packet.measures_body
  | disconnect packet => exact packet.body_eq ▸ packet.measures_body

/-- A topic that fits its field is within the limit that is checked first. -/
theorem Publish.length_le_of_written {packet : Publish} {bytes : Bytes}
    (written : (writtenSegments packet.segments).toExcept = .ok bytes) :
    packet.topic.length ≤ maxFieldLength := by
  obtain ⟨front, _, writtenTopic, -, -⟩ := Draft.toExcept_append_eq_ok.1 written
  obtain ⟨fits, -⟩ :=
    Reader.toExcept_measured_eq_ok.1 (Draft.toExcept_inField_eq_ok.1 writtenTopic)
  rw [← packet.topic.utf8ByteSize_name]
  exact fits

theorem toExcept_bareDraft_eq_ok {packet : Packet} {bytes : Bytes} :
    packet.bareDraft.toExcept = .ok bytes ↔
      packet.IsAdmissible ∧
        (packet.header.draft ++ writtenSegments packet.segments).toExcept = .ok bytes := by
  cases packet with
  | connect packet =>
      simp only [bareDraft, Connect.draft, Connect.checks, Draft.append_assoc, Connect.body_eq,
        Draft.toExcept_require_append_eq_ok, decide_eq_true_eq]
      rfl
  | publish packet =>
      simp only [bareDraft, Publish.draft, Publish.checks, Draft.append_assoc, Publish.body_eq,
        Draft.toExcept_require_append_eq_ok, decide_eq_true_eq, bne_iff_ne]
      refine and_congr_right fun _ => and_iff_right_of_imp fun written => ?_
      obtain ⟨_, _, -, writtenBody, -⟩ := Draft.toExcept_append_eq_ok.1 written
      exact Publish.length_le_of_written writtenBody
  | disconnect packet =>
      simp only [bareDraft, Disconnect.draft, Disconnect.body_eq, IsAdmissible, true_and]
      rfl
  | _ => exact ⟨fun written => ⟨trivial, written⟩, And.right⟩

theorem encode_eq_ok_iff_written {packet : Packet} {bytes : Bytes} :
    packet.encode = .ok bytes ↔
      packet.IsAdmissible ∧ ∃ (length : Numeral) (body : Bytes), length.IsShortest ∧
        length.value = packet.remainingLength ∧
        (writtenSegments packet.segments).toExcept = .ok body ∧
        packet.header.firstByte :: (length.bytes ++ body) = bytes := by
  rw [encode_eq, draft, Draft.toExcept_within_eq_ok, toExcept_bareDraft_eq_ok]
  refine and_congr_right fun _ => ?_
  constructor
  · intro written
    obtain ⟨_, body, writtenHeader, writtenBody, rfl⟩ := Draft.toExcept_append_eq_ok.1 written
    obtain ⟨_, _, ⟨⟩, writtenLength, rfl⟩ := Draft.toExcept_append_eq_ok.1 writtenHeader
    obtain ⟨length, isShortest, value, rfl⟩ := Numeral.toExcept_draft_eq_ok.1 writtenLength
    rw [remainingLength_header] at value
    exact ⟨length, body, isShortest, value, writtenBody, rfl⟩
  · intro spelled
    obtain ⟨length, body, isShortest, value, writtenBody, rfl⟩ := spelled
    rw [← remainingLength_header] at value
    have writtenLength := Numeral.toExcept_draft_eq_ok.2 ⟨length, isShortest, value, rfl⟩
    have writtenHeader : packet.header.draft.toExcept =
        .ok (packet.header.firstByte :: length.bytes) :=
      Draft.toExcept_append_eq_ok.2 ⟨_, _, rfl, writtenLength, rfl⟩
    exact Draft.toExcept_append_eq_ok.2 ⟨_, body, writtenHeader, writtenBody, rfl⟩

/-! ## Reading -/

theorem ofBody_eq_ok_iff_read {header : FixedHeader} {body : Bytes} {packet : Packet} :
    ofBody header body = .ok packet ↔
      header.validateFlags = .ok () ∧
        ∃ reader, reader? header = some reader ∧ reader body = .ok packet [] := by
  unfold ofBody
  cases header.validateFlags with
  | error => exact ⟨nofun, nofun⟩
  | ok =>
      cases reader? header with
      | none => exact ⟨nofun, nofun⟩
      | some reader =>
          simp only [Option.some.injEq, exists_eq_left', true_and, ← Reader.all_eq_ok]
          change (reader.all body).mapError _ = _ ↔ _
          cases reader.all body with
          | error => exact ⟨nofun, nofun⟩
          | ok => exact Iff.rfl

/-- The body of a packet is spelled by one of its forms, and the flags before it
    are those of the packet. -/
theorem ofBody_eq_ok {header : FixedHeader} {body : Bytes} {packet : Packet}
    (measured : header.remainingLength = body.length) :
    ofBody header body = .ok packet ↔
      header.type = packet.type ∧ header.flags = packet.header.flags ∧ packet.IsAdmissible ∧
        ∃ segments, packet.IsForm segments ∧ IsSpelling segments body := by
  rw [ofBody_eq_ok_iff_read]
  obtain ⟨type, flags, remainingLength⟩ := header
  cases measured
  constructor
  · intro success
    obtain ⟨valid, reader, known, read⟩ := success
    have required : ∀ expected, type.requiredFlags? = some expected → flags = expected := by
      intro expected isRequired
      simp only [FixedHeader.validateFlags, isRequired] at valid
      split at valid
      · assumption
      · cases valid
    cases type with
    | connect =>
        cases known
        obtain ⟨packet, rfl, fields⟩ := Reader.map_eq_ok.1 read
        obtain ⟨_, ⟨fits, rfl⟩, spelling⟩ := Connect.usesUp_reader.1 fields
        exact ⟨rfl, required _ rfl, fits, _, rfl, spelling⟩
    | connack =>
        cases known
        obtain ⟨packet, rfl, fields⟩ := Reader.map_eq_ok.1 read
        obtain ⟨_, rfl, spelling⟩ := Connack.usesUp_reader.1 fields
        exact ⟨rfl, required _ rfl, trivial, _, rfl, spelling⟩
    | publish =>
        cases known
        obtain ⟨packet, rfl, fields⟩ := Reader.map_eq_ok.1 read
        obtain ⟨_, ⟨sameFlags, notZero, rfl⟩, spelling⟩ := (Publish.usesUp_reader flags).1 fields
        exact ⟨rfl, sameFlags.symm, notZero, _, rfl, spelling⟩
    | subscribe =>
        cases known
        obtain ⟨packet, rfl, fields⟩ := Reader.map_eq_ok.1 read
        obtain ⟨_, rfl, spelling⟩ := Subscribe.usesUp_reader.1 fields
        exact ⟨rfl, required _ rfl, trivial, _, rfl, spelling⟩
    | suback =>
        cases known
        obtain ⟨packet, rfl, fields⟩ := Reader.map_eq_ok.1 read
        obtain ⟨_, rfl, spelling⟩ := Suback.usesUp_reader.1 fields
        exact ⟨rfl, required _ rfl, trivial, _, rfl, spelling⟩
    | disconnect =>
        cases known
        obtain ⟨packet, rfl, fields⟩ := Reader.map_eq_ok.1 read
        exact ⟨rfl, required _ rfl, trivial, Disconnect.reader_eq_ok.1 fields⟩
    | _ => cases known
  · intro parts
    obtain ⟨rfl, rfl, admissible, segments, form, spelling⟩ := parts
    cases packet with
    | connect packet =>
        have fields := Connect.usesUp_reader.2 ⟨segments, ⟨admissible, form⟩, spelling⟩
        exact ⟨rfl, _, rfl, Reader.map_eq_ok.2 ⟨packet, rfl, fields⟩⟩
    | connack packet =>
        have fields := Connack.usesUp_reader.2 ⟨segments, form, spelling⟩
        exact ⟨rfl, _, rfl, Reader.map_eq_ok.2 ⟨packet, rfl, fields⟩⟩
    | publish packet =>
        have fields := (Publish.usesUp_reader _).2 ⟨segments, ⟨rfl, admissible, form⟩, spelling⟩
        exact ⟨rfl, _, rfl, Reader.map_eq_ok.2 ⟨packet, rfl, fields⟩⟩
    | subscribe packet =>
        have fields := Subscribe.usesUp_reader.2 ⟨segments, form, spelling⟩
        exact ⟨rfl, _, rfl, Reader.map_eq_ok.2 ⟨packet, rfl, fields⟩⟩
    | suback packet =>
        have fields := Suback.usesUp_reader.2 ⟨segments, form, spelling⟩
        exact ⟨rfl, _, rfl, Reader.map_eq_ok.2 ⟨packet, rfl, fields⟩⟩
    | disconnect packet =>
        have fields := Disconnect.reader_eq_ok.2 ⟨segments, form, spelling⟩
        exact ⟨rfl, _, rfl, Reader.map_eq_ok.2 ⟨packet, rfl, fields⟩⟩

end Packet

theorem FixedHeader.accepts_reader :
    FixedHeader.reader.Accepts fun header bytes =>
      ∃ length : Numeral, length.value = header.remainingLength ∧
        header.firstByte :: length.bytes = bytes := by
  intro input header rest
  simp only [FixedHeader.reader, FixedHeader.read, Reader.inverts_byte.bind_eq_ok]
  constructor
  · intro success
    obtain ⟨first, _, left, ⟨⟩, read, rfl⟩ := success
    cases known : PacketType.ofCode? (first.toNat / 16) with
    | none =>
        rw [known] at read
        cases read
    | some type =>
        rw [known] at read
        obtain ⟨value, left', readLength, done⟩ := Reader.bind_eq_ok.1 read
        obtain ⟨_, ⟨length, rfl, rfl⟩, rfl⟩ := Numeral.accepts_reader.1 readLength
        cases done
        refine ⟨_, ⟨length, rfl, rfl⟩, ?_⟩
        rw [firstByte_of_ofCode? length.value known]
        rfl
  · intro spelled
    obtain ⟨_, ⟨length, value, rfl⟩, rfl⟩ := spelled
    refine ⟨header.firstByte, [header.firstByte], length.bytes ++ rest, rfl, ?_, rfl⟩
    rw [ofCode?_firstByte, flagsOfByte_firstByte]
    refine Reader.bind_eq_ok.2 ⟨length.value, rest, ?_, ?_⟩
    · exact length.reader_bytes rest
    · rw [value]
      rfl

theorem Frame.accepts_reader :
    Frame.reader.Accepts fun frame bytes =>
      ∃ length : Numeral, length.value = frame.header.remainingLength ∧
        length.value = frame.body.length ∧
        frame.header.firstByte :: (length.bytes ++ frame.body) = bytes := by
  intro input frame rest
  simp only [Frame.reader, FixedHeader.accepts_reader.bind_eq_ok, Reader.bind_eq_ok,
    Reader.take_eq_ok, Reader.pure_eq_ok]
  constructor
  · intro read
    obtain ⟨header, _, _, ⟨length, value, rfl⟩, ⟨body, left, ⟨announced, rfl⟩, rfl, rfl⟩, rfl⟩ := read
    exact ⟨_, ⟨length, value, value.trans announced.symm, rfl⟩, by simp⟩
  · intro spelled
    obtain ⟨_, ⟨length, value, measured, rfl⟩, rfl⟩ := spelled
    exact ⟨frame.header, _, frame.body ++ rest, ⟨length, value, rfl⟩,
      ⟨frame.body, rest, ⟨measured.symm.trans value, rfl⟩, rfl, rfl⟩, by simp⟩

theorem Received.ofFrame_eq_ok {frame : Frame} {received : Received} :
    ofFrame frame = .ok received ↔
      frame.header = received.header ∧
        Packet.ofBody frame.header frame.body = .ok received.packet := by
  unfold ofFrame
  obtain ⟨header, packet⟩ := received
  cases Packet.ofBody frame.header frame.body with
  | error => exact ⟨nofun, nofun⟩
  | ok => simp [bind, Except.bind, pure, Except.pure]

/-! ## Wire forms -/

/-- A packet in bytes. -/
structure WireForm where
  packet : Packet
  /-- The remaining length as it is written. -/
  length : Numeral
  segments : List Segment
  /-- The property blocks of the body, in order. -/
  blocks : List Block
  body : Bytes
  form : packet.IsForm segments
  admissible : packet.IsAdmissible
  spelled : Spelled segments blocks body
  measured : length.value = body.length

namespace WireForm

def header (form : WireForm) : FixedHeader :=
  { form.packet.header with remainingLength := form.length.value }

def bytes (form : WireForm) : Bytes := form.header.firstByte :: (form.length.bytes ++ form.body)

/-- Every numeral in the bytes: the remaining length, and those of the blocks. -/
def numerals (form : WireForm) : List Numeral := form.length :: form.blocks.flatMap Block.numerals

/-- Bytes that stand for a packet with its header. -/
def Spells (received : Received) (bytes : Bytes) : Prop :=
  ∃ form : WireForm, form.packet = received.packet ∧ form.header = received.header ∧
    form.bytes = bytes

theorem header_eq_iff {form : WireForm} {header : FixedHeader} :
    form.header = header ↔ header.type = form.packet.type ∧
      header.flags = form.packet.header.flags ∧ form.length.value = header.remainingLength := by
  obtain ⟨type, flags, remainingLength⟩ := header
  simp only [WireForm.header, Packet.type_header, FixedHeader.mk.injEq]
  exact and_congr eq_comm (and_congr_left' eq_comm)

theorem accepts_reader : Received.reader.Accepts Spells := by
  intro input received rest
  simp only [Received.reader, Frame.accepts_reader.bind_eq_ok, Reader.lift_eq_ok,
    Received.ofFrame_eq_ok]
  constructor
  · intro read
    obtain ⟨frame, _, _, ⟨length, value, measured, rfl⟩, ⟨⟨sameHeader, known⟩, rfl⟩, rfl⟩ := read
    obtain ⟨type, flags, admissible, segments, isForm, blocks, spelled⟩ :=
      (Packet.ofBody_eq_ok (value.symm.trans measured)).1 known
    let form : WireForm :=
      ⟨received.packet, length, segments, blocks, frame.body, isForm, admissible, spelled, measured⟩
    have header : form.header = frame.header := header_eq_iff.2 ⟨type, flags, value⟩
    refine ⟨form.bytes, ⟨form, rfl, header.trans sameHeader, rfl⟩, ?_⟩
    rw [bytes, header]
  · intro spelled
    obtain ⟨_, ⟨form, samePacket, sameHeader, rfl⟩, rfl⟩ := spelled
    refine ⟨⟨form.header, form.body⟩, form.bytes, rest, ⟨form.length, rfl, form.measured, rfl⟩,
      ⟨⟨sameHeader, ?_⟩, rfl⟩, rfl⟩
    rw [← samePacket, Packet.ofBody_eq_ok form.measured]
    exact ⟨form.packet.type_header, rfl, form.admissible, form.segments, form.form, form.blocks,
      form.spelled⟩

end WireForm

theorem Received.ofBuffer_eq_ok {buffer rest : Bytes} {received : Received} :
    ofBuffer buffer = .ok (received, rest) ↔ reader buffer = .ok received rest := by
  unfold ofBuffer
  cases reader buffer with
  | ok => simp
  | error => exact ⟨nofun, nofun⟩

/-- The decoder accepts the wire forms of the packet, followed by anything. -/
theorem Packet.decode_eq_ok {buffer rest : Bytes} {packet : Packet} :
    decode buffer = .ok (packet, rest) ↔
      ∃ form : WireForm, form.packet = packet ∧ form.bytes ++ rest = buffer := by
  unfold decode
  constructor
  · intro decoded
    cases taken : Received.ofBuffer buffer with
    | error =>
        rw [taken] at decoded
        cases decoded
    | ok received =>
        rw [taken] at decoded
        cases decoded
        obtain ⟨_, ⟨form, samePacket, -, rfl⟩, whole⟩ :=
          WireForm.accepts_reader.1 (Received.ofBuffer_eq_ok.1 taken)
        exact ⟨form, samePacket, whole⟩
  · intro found
    obtain ⟨form, rfl, rfl⟩ := found
    have taken : Received.ofBuffer (form.bytes ++ rest) = .ok (⟨form.header, form.packet⟩, rest) :=
      Received.ofBuffer_eq_ok.2 (WireForm.accepts_reader.read ⟨form, rfl, rfl, rfl⟩ rest)
    rw [taken]
    rfl

end MqttWire
