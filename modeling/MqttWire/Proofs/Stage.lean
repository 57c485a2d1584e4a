import MqttWire.Proofs.Framing
import MqttWire.Proofs.Reports

/-! # Where decoding stops

Decoding checks the header, whether the frame is complete, its flags, whether
its type is supported, and its body, in this order. An error tells by its form
at which of these it arose, and names the packet only if that was the body. So
an error of a body cannot be taken for a want of bytes, nor one of a malformed
header for one of a malformed field.
-/

namespace MqttWire

/-- Whether there is a reader for bodies of the type. -/
def PacketType.isSupported : PacketType → Bool
  | .connect | .connack | .publish | .subscribe | .suback | .disconnect => true
  | _ => false

/-- The flags are the required ones, if there are any. -/
def FixedHeader.FlagsFit (header : FixedHeader) : Prop :=
  ∀ expected, header.type.requiredFlags? = some expected → header.flags = expected

/-- The bytes begin with the whole frame, its remaining length being a numeral of
    any length. -/
def Frame.Begins (frame : Frame) (buffer : Bytes) : Prop :=
  ∃ (length : Numeral) (rest : Bytes),
    length.value = frame.header.remainingLength ∧ length.value = frame.body.length ∧
      frame.header.firstByte :: (length.bytes ++ frame.body) ++ rest = buffer

/-- What decoding checks, in order. -/
inductive Stage where
  | header
  /-- The frame must be there to its end. -/
  | arrival
  | flags
  | support
  | body
  deriving Repr, DecidableEq

/-- How a whole frame is refused. -/
inductive Frame.RefusedAt (frame : Frame) : Stage → Error → Prop where
  | flags {expected : HeaderFlags} (required : frame.header.type.requiredFlags? = some expected)
      (differ : frame.header.flags ≠ expected) :
      frame.RefusedAt .flags ⟨[], .invalidFlags frame.header.type frame.header.flags expected⟩
  | support (fit : frame.header.FlagsFit) (unsupported : frame.header.type.isSupported = false) :
      frame.RefusedAt .support ⟨[], .unsupportedPacketType frame.header.type⟩
  | body {inner : Error} (fit : frame.header.FlagsFit)
      (supported : frame.header.type.isSupported = true)
      (refused : Packet.ofBareBody frame.header frame.body = .error inner)
      (ofBody : inner.IsOfBody) :
      frame.RefusedAt .body (inner.within (.packet frame.header.type))

/-- How decoding fails: on a header that is malformed, on a frame that is not
    complete, or on one that is refused. -/
inductive StopsAt : Bytes → Stage → Error → Prop where
  | untyped {first : UInt8} {rest : Bytes} (untyped : ¬HasType first) :
      StopsAt (first :: rest) .header ⟨[], .invalidPacketType 0⟩
  | endless {first : UInt8} {groups rest : Bytes} (typed : HasType first)
      (four : groups.length = 4) (goesOn : GoesOn groups) :
      StopsAt (first :: (groups ++ rest)) .header ⟨[], .malformedVarInt⟩
  | incomplete {buffer : Bytes} {needed got : Nat} (incomplete : IsIncomplete buffer needed got) :
      StopsAt buffer .arrival ⟨[], .bufferTooSmall needed got⟩
  | refused {frame : Frame} {buffer : Bytes} {stage : Stage} {error : Error}
      (begins : frame.Begins buffer) (refused : frame.RefusedAt stage error) :
      StopsAt buffer stage error

/-! ## The form of an error -/

/-- The stage at which an error arose, told by its form. -/
def Error.stage (error : Error) : Stage :=
  match error.context, error.root with
  | _ :: _, _ => .body
  | [], .bufferTooSmall .. => .arrival
  | [], .invalidFlags .. => .flags
  | [], .unsupportedPacketType _ => .support
  | [], _ => .header

/-- Causes that no bytes give: those of sources and sinks, of values without an
    encoding, and of properties that are put together or held against the table. -/
def Fault.isApartFromBytes : Fault → Bool
  | .io _ | .tooLong .. | .varIntOverflow _ | .propertyKindMismatch ..
  | .propertyNotPermitted .. => true
  | _ => false

theorem Fault.not_isApartFromBytes_of_liesInBody {fault : Fault} (lies : fault.liesInBody) :
    fault.isApartFromBytes = false := by
  cases fault <;> first | rfl | cases lies

theorem Fault.kind_ne_io_of_not_isApartFromBytes {fault : Fault}
    (ofBytes : fault.isApartFromBytes = false) : fault.kind ≠ .io := by
  intro isIo
  cases fault <;> cases isIo
  cases ofBytes

variable {frame : Frame} {buffer : Bytes} {stage : Stage} {error : Error}

theorem StopsAt.stage_eq (stops : StopsAt buffer stage error) : error.stage = stage := by
  cases stops with
  | untyped => rfl
  | endless => rfl
  | incomplete => rfl
  | refused begins refused => cases refused <;> rfl

theorem StopsAt.not_isApartFromBytes (stops : StopsAt buffer stage error) :
    error.root.isApartFromBytes = false := by
  cases stops with
  | untyped => rfl
  | endless => rfl
  | incomplete => rfl
  | refused begins refused =>
      cases refused with
      | flags => rfl
      | support => rfl
      | body fit supported refused ofBody =>
          exact Fault.not_isApartFromBytes_of_liesInBody ofBody.root

/-! ## Whole frames -/

theorem FixedHeader.validateFlags_eq_ok {header : FixedHeader} (fit : header.FlagsFit) :
    header.validateFlags = .ok () := by
  unfold validateFlags
  cases required : header.type.requiredFlags? with
  | none => rfl
  | some expected => simp [fit expected required]

theorem FixedHeader.validateFlags_eq_error {header : FixedHeader} {expected : HeaderFlags}
    (required : header.type.requiredFlags? = some expected) (differ : header.flags ≠ expected) :
    header.validateFlags = .error ⟨[], .invalidFlags header.type header.flags expected⟩ := by
  simp [validateFlags, required, differ]

theorem FixedHeader.flagsFit_or_differ (header : FixedHeader) :
    header.FlagsFit ∨
      ∃ expected, header.type.requiredFlags? = some expected ∧ header.flags ≠ expected := by
  by_cases fit : header.FlagsFit
  · exact .inl fit
  · right
    simpa [FlagsFit] using fit

theorem Packet.reader?_eq_none {header : FixedHeader} :
    reader? header = none ↔ header.type.isSupported = false := by
  unfold reader? PacketType.isSupported
  cases header.type <;> simp

/-- The body of a supported type is refused with the packet named. -/
theorem Packet.ofBody_of_supported {header : FixedHeader} (fit : header.FlagsFit)
    (supported : header.type.isSupported = true) (body : Bytes) :
    ofBody header body =
      (ofBareBody header body).mapError (Error.within (.packet header.type)) := by
  unfold ofBody ofBareBody
  rw [FixedHeader.validateFlags_eq_ok fit]
  cases known : reader? header with
  | none => simp [reader?_eq_none.1 known] at supported
  | some reader => rfl

theorem Packet.isOfBody_of_ofBareBody {header : FixedHeader} {body : Bytes} {inner : Error}
    (supported : header.type.isSupported = true) (refused : ofBareBody header body = .error inner) :
    inner.IsOfBody := by
  unfold ofBareBody at refused
  cases known : reader? header with
  | none => simp [reader?_eq_none.1 known] at supported
  | some reader =>
      rw [known] at refused
      exact (reports_reader? known).all (fun _ => ⟨.inl rfl, rfl⟩) refused

theorem Frame.RefusedAt.ofBody_eq (refused : frame.RefusedAt stage error) :
    Packet.ofBody frame.header frame.body = .error error := by
  cases refused with
  | flags required differ =>
      simp only [Packet.ofBody, FixedHeader.validateFlags_eq_error required differ]
      rfl
  | support fit unsupported =>
      simp only [Packet.ofBody, FixedHeader.validateFlags_eq_ok fit,
        Packet.reader?_eq_none.2 unsupported]
      rfl
  | body fit supported refused =>
      rw [Packet.ofBody_of_supported fit supported, refused]
      rfl

theorem Frame.exists_refusedAt (refused : Packet.ofBody frame.header frame.body = .error error) :
    ∃ stage, frame.RefusedAt stage error := by
  obtain fit | ⟨expected, required, differ⟩ := frame.header.flagsFit_or_differ
  · cases supported : frame.header.type.isSupported with
    | false =>
        have stops := RefusedAt.support fit supported
        cases stops.ofBody_eq.symm.trans refused
        exact ⟨_, stops⟩
    | true =>
        rw [Packet.ofBody_of_supported fit supported] at refused
        cases read : Packet.ofBareBody frame.header frame.body with
        | ok => simp [read, Except.mapError] at refused
        | error inner =>
            rw [read] at refused
            cases refused
            exact ⟨_, .body fit supported read (Packet.isOfBody_of_ofBareBody supported read)⟩
  · have stops := RefusedAt.flags required differ
    cases stops.ofBody_eq.symm.trans refused
    exact ⟨_, stops⟩

theorem Packet.decode_of_begins (begins : frame.Begins buffer) :
    ∃ rest, decode buffer = (ofBody frame.header frame.body).map fun packet => (packet, rest) := by
  obtain ⟨length, rest, announced, measured, rfl⟩ := begins
  have read := Frame.accepts_reader.read ⟨length, announced, measured, rfl⟩ rest
  refine ⟨rest, ?_⟩
  simp only [decode, Received.ofBuffer, Received.reader, bind, EStateM.bind, read,
    Received.ofFrame]
  cases ofBody frame.header frame.body <;> rfl

theorem IsFrame.exists_begins {front : Bytes} (isFrame : IsFrame front) (rest : Bytes) :
    ∃ frame : Frame, frame.Begins (front ++ rest) := by
  obtain @⟨first, length, body, typed, measured⟩ := isFrame
  obtain ⟨type, known⟩ := typed.exists_type
  refine ⟨⟨⟨type, FixedHeader.flagsOfByte first, length.value⟩, body⟩, length, rest, rfl, measured,
    ?_⟩
  rw [FixedHeader.firstByte_of_ofCode? length.value known]

/-! ## Buffers -/

theorem StopsAt.decode_eq (stops : StopsAt buffer stage error) :
    Packet.decode buffer = .error error := by
  cases stops with
  | untyped untyped =>
      simp only [Packet.decode, Received.ofBuffer,
        Received.reader_of_header (FixedHeader.reader_of_untyped untyped _)]
      rfl
  | @endless first groups rest typed four goesOn =>
      have stopped := FixedHeader.reader_of_stopped typed (VarInt.reader_of_four goesOn four rest)
      simp only [Packet.decode, Received.ofBuffer, Received.reader_of_header stopped]
      rfl
  | incomplete incomplete => exact Packet.decode_of_isIncomplete incomplete
  | refused begins refused =>
      obtain ⟨rest, decoded⟩ := Packet.decode_of_begins begins
      rw [decoded, refused.ofBody_eq]
      rfl

theorem exists_stopsAt (failed : Packet.decode buffer = .error error) :
    ∃ stage, StopsAt buffer stage error := by
  have known {stage : Stage} {error' : Error} (stops : StopsAt buffer stage error') :
      ∃ stage, StopsAt buffer stage error := by
    cases stops.decode_eq.symm.trans failed
    exact ⟨_, stops⟩
  obtain ⟨needed, got, incomplete⟩ | ⟨front, rest, isFrame | isRefused, rfl⟩ :=
    isIncomplete_or_settled buffer
  · exact known (.incomplete incomplete)
  · obtain ⟨frame, begins⟩ := isFrame.exists_begins rest
    obtain ⟨left, decoded⟩ := Packet.decode_of_begins begins
    rw [decoded] at failed
    cases read : Packet.ofBody frame.header frame.body with
    | ok => simp [read, Except.map] at failed
    | error inner =>
        obtain ⟨stage, refused⟩ := Frame.exists_refusedAt read
        exact known (.refused begins refused)
  · cases isRefused with
    | untyped untyped => exact known (.untyped untyped)
    | endless typed four goesOn => exact known (.endless typed four goesOn)

/-- Decoding fails just where it stops at exactly one stage, with the error that
    belongs there. No error is one of a source or sink, nor one that only writers
    or checks of values give. -/
theorem Packet.decode_eq_error_iff_stops (buffer : Bytes) (error : Error) :
    (decode buffer = .error error ↔ ∃! stage, StopsAt buffer stage error) ∧
      (decode buffer = .error error →
        error.kind ≠ .io ∧ error.root.isApartFromBytes = false) := by
  constructor
  · constructor
    · intro failed
      obtain ⟨stage, stops⟩ := exists_stopsAt failed
      exact ⟨stage, stops, fun other stops' => stops'.stage_eq.symm.trans stops.stage_eq⟩
    · intro stops
      obtain ⟨stage, stops, -⟩ := stops
      exact stops.decode_eq
  · intro failed
    obtain ⟨stage, stops⟩ := exists_stopsAt failed
    have ofBytes := stops.not_isApartFromBytes
    exact ⟨Fault.kind_ne_io_of_not_isApartFromBytes ofBytes, ofBytes⟩

/-- The flags are looked at before the type, whatever the body. -/
example : Packet.decode [0xA0, 0x01, 0xFF] =
    .error (Fault.invalidFlags .unsubscribe .clear .reserved) := by
  cbv

end MqttWire
