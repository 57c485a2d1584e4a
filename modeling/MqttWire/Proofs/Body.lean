import MqttWire.Proofs.PackedByte
import MqttWire.Proofs.SegmentReader
import MqttWire.Proofs.TopicName

/-! # Packet bodies

Each packet body is read and written segment by segment. The reader of a body
uses up exactly the bytes that spell the segments of its packet, and the limits
that the writer checks beforehand are among those that the reader checks. Only a
DISCONNECT has several sequences of segments, of which the writer takes the
shortest.
-/

namespace MqttWire

open Reader

/-! ## CONNACK and SUBACK -/

namespace Connack

/-- The body in order. -/
def segments (packet : Connack) : List Segment :=
  [.field (.byte (if packet.sessionPresent then 1 else 0)), .field (.byte packet.reasonCode),
    .block .properties packet.properties]

theorem body_eq (packet : Connack) : packet.body = writtenSegments packet.segments := rfl

theorem usesUp_reader : reader.UsesUp fun packet segments => segments = packet.segments := by
  have takes : reader.Takes _ :=
    (inverts_byte.takes.inField _).bind fun flags =>
    (takes_lift (sessionPresentOfByte flags)).bind fun sessionPresent =>
    (inverts_byte.takes.inField _).bind fun reasonCode =>
    (takes_block .properties).bind fun properties =>
    takes_pure (Connack.mk sessionPresent reasonCode properties)
  apply takes.usesUp.congr
  intro packet segments
  obtain ⟨sessionPresent, reasonCode, properties⟩ := packet
  cases sessionPresent <;> simp [InSequence, sessionPresentOfByte_eq_ok, Connack.segments]

end Connack

namespace Suback

/-- The body in order. -/
def segments (packet : Suback) : List Segment :=
  [.field (.uint16 packet.packetId), .block .properties packet.properties,
    .field (.raw packet.reasons)]

theorem body_eq (packet : Suback) : packet.body = writtenSegments packet.segments := rfl

theorem usesUp_reader : reader.UsesUp fun packet segments => segments = packet.segments := by
  have uses : reader.UsesUp _ :=
    (inverts_uint16.takes.inField _).bind_usesUp fun packetId =>
    (takes_block .properties).bind_usesUp fun properties =>
    usesUp_rest.map fun reasons => Suback.mk packetId properties reasons
  apply uses.congr
  intro packet segments
  obtain ⟨packetId, properties, reasons⟩ := packet
  simp [InSequence, Suback.segments]

end Suback

/-! ## SUBSCRIBE -/

theorem SubscriptionFilter.inverts_optionsReader :
    optionsReader.Inverts fun options => .byte options.toByte := by
  intro input options rest
  simp only [optionsReader, inverts_byte.bind_eq_ok, lift_eq_ok, SubscriptionOptions.ofByte_eq_ok]
  constructor
  · intro read
    obtain ⟨_, bytes, _, written, ⟨rfl, rfl⟩, rfl⟩ := read
    exact ⟨bytes, written, rfl⟩
  · intro spelled
    obtain ⟨bytes, written, rfl⟩ := spelled
    exact ⟨_, bytes, rest, written, ⟨rfl, rfl⟩, rfl⟩

theorem SubscriptionFilter.inverts_reader : reader.Inverts SubscriptionFilter.draft := by
  intro input filter rest
  simp only [reader, Reader.inField, (inverts_text.within _).bind_eq_ok,
    (inverts_optionsReader.within _).bind_eq_ok, pure_eq_ok, SubscriptionFilter.draft,
    Draft.toExcept_append_eq_ok, Draft.toExcept_inField_eq_ok]
  constructor
  · intro read
    obtain ⟨_, front, _, writtenFilter, ⟨_, back, _, writtenOptions, ⟨rfl, rfl⟩, rfl⟩, rfl⟩ := read
    exact ⟨front ++ back, ⟨front, back, writtenFilter, writtenOptions, rfl⟩, by simp⟩
  · intro spelled
    obtain ⟨_, ⟨front, back, writtenFilter, writtenOptions, rfl⟩, rfl⟩ := spelled
    exact ⟨_, front, _, writtenFilter, ⟨_, back, rest, writtenOptions, ⟨rfl, rfl⟩, rfl⟩, by simp⟩

namespace Subscribe

/-- The body in order. -/
def segments (packet : Subscribe) : List Segment :=
  [.field (.uint16 packet.packetId), .block .properties packet.properties,
    .field (.concat (packet.filters.map SubscriptionFilter.draft))]

theorem body_eq (packet : Subscribe) : packet.body = writtenSegments packet.segments := rfl

theorem usesUp_reader : reader.UsesUp fun packet segments => segments = packet.segments := by
  have uses : reader.UsesUp _ :=
    (inverts_uint16.takes.inField _).bind_usesUp fun packetId =>
    (takes_block .properties).bind_usesUp fun properties =>
    (usesUp_untilEnd SubscriptionFilter.inverts_reader).map fun filters =>
    Subscribe.mk packetId properties filters
  apply uses.congr
  intro packet segments
  obtain ⟨packetId, properties, filters⟩ := packet
  simp [InSequence, Subscribe.segments]

end Subscribe

/-! ## PUBLISH -/

namespace Publish

/-- The body in order. -/
def segments (packet : Publish) : List Segment :=
  [.field ((Draft.text packet.topic.name).inField .topic), .field (.uint16 packet.packetId),
    .block .properties packet.properties, .field (.raw packet.payload)]

theorem body_eq (packet : Publish) : packet.body = writtenSegments packet.segments := rfl

theorem takes_packetIdReader :
    packetIdReader.Takes fun packetId segments =>
      packetId ≠ 0 ∧ segments = [.field (.uint16 packetId)] := by
  intro input packetId rest
  simp only [packetIdReader, inverts_uint16.bind_eq_ok]
  constructor
  · intro read
    obtain ⟨found, bytes, left, written, checked, rfl⟩ := read
    split at checked
    · cases checked
    · rename_i notZero
      cases checked
      exact ⟨bytes, ⟨_, ⟨notZero, rfl⟩, isSpelling_single_field.2 written⟩, rfl⟩
  · intro spelled
    obtain ⟨bytes, ⟨_, ⟨notZero, rfl⟩, spelling⟩, rfl⟩ := spelled
    refine ⟨packetId, bytes, rest, isSpelling_single_field.1 spelling, ?_, rfl⟩
    rw [if_neg notZero]
    rfl

theorem usesUp_reader (flags : HeaderFlags) :
    (reader flags).UsesUp fun packet segments =>
      packet.flags = flags ∧ packet.packetId ≠ 0 ∧ segments = packet.segments := by
  have uses : (reader flags).UsesUp _ :=
    (takes_lift (QoS.ofCode (flags.val / 2 % 4))).bind_usesUp fun qos =>
    (inverts_text.takes_inField .topic).bind_usesUp fun name =>
    (takes_lift (Topic.parse name)).bind_usesUp fun topic =>
    (takes_packetIdReader.inField _).bind_usesUp fun packetId =>
    (takes_block .properties).bind_usesUp fun properties =>
    usesUp_rest.map fun payload =>
    Publish.mk (flags.val.testBit 3) qos (flags.val.testBit 0) topic packetId properties payload
  apply uses.congr
  intro packet segments
  obtain ⟨dup, qos, retain, topic, packetId, properties, payload⟩ := packet
  simp [InSequence, Topic.parse_eq_ok, flags_eq_iff, Publish.segments, and_assoc, and_left_comm]

end Publish

/-! ## CONNECT -/

namespace Connect

/-- The will in order. -/
def willSegments (will : Will) : List Segment :=
  [.block .willProperties will.properties, .field ((Draft.text will.topic).inField .willTopic),
    .field ((Draft.binary will.payload).inField .willPayload)]

/-- The body in order. -/
def segments (packet : Connect) : List Segment :=
  [.field (.raw (nameField ++ [protocolLevel])), .field (.byte packet.flags.toByte),
    .field (.uint16 packet.keepAlive), .block .properties packet.properties,
    .field ((Draft.text packet.clientId).inField .clientId)] ++
  (packet.will.elim [] willSegments ++
    (packet.username.elim [] (fun username =>
        [.field ((Draft.text username).inField .username)]) ++
      packet.password.elim [] fun password =>
        [.field ((Draft.binary password).inField .password)]))

theorem body_eq (packet : Connect) : packet.body = writtenSegments packet.segments := by
  have will : (fun will => writtenSegments (willSegments will)) = willDraft := rfl
  simp only [segments, writtenSegments_append, writtenSegments_elim, writtenSegments_single, will]
  simp only [body, writtenSegments, List.map_cons, List.map_nil, Segment.draft, Draft.concat_cons,
    Draft.concat_nil, Draft.append_assoc, Draft.append_empty]

theorem accepts_protocolReader :
    protocolReader.Accepts fun _ bytes => nameField ++ [protocolLevel] = bytes := by
  intro input _ rest
  simp only [protocolReader, Reader.bind_eq_ok, take_eq_ok]
  constructor
  · intro success
    obtain ⟨found, left, ⟨length, rfl⟩, read⟩ := success
    split at read
    · cases read
    · rename_i name
      split at read
      · cases read
      · rename_i level
        cases read
        have whole : found = found.take 6 ++ [found.getD 6 0] := by
          match found, length with
          | [_, _, _, _, _, _, _], _ => rfl
        rw [Decidable.not_not.1 name, Decidable.not_not.1 level] at whole
        exact ⟨found, whole.symm, rfl⟩
  · intro spelled
    obtain ⟨_, rfl, rfl⟩ := spelled
    exact ⟨_, _, ⟨rfl, rfl⟩, rfl⟩

theorem takes_protocolReader :
    protocolReader.Takes fun _ segments =>
      segments = [.field (.raw (nameField ++ [protocolLevel]))] := by
  apply accepts_protocolReader.congr
  intro _ bytes
  rw [exists_eq_left, isSpelling_single_field, Draft.toExcept_raw, Except.ok.injEq]

theorem checkClientId_eq_ok {clientId : String} {done : Unit} :
    checkClientId clientId = .ok done ↔ clientId.utf8ByteSize ≤ maxClientIdLength := by
  unfold checkClientId
  split <;> simp [*]

theorem takes_willReader (flags : WillFlags) :
    (willReader flags).Takes fun will segments =>
      ⟨will.qos, will.retain⟩ = flags ∧ segments = willSegments will := by
  have takes : (willReader flags).Takes _ :=
    (takes_block .willProperties).bind fun properties =>
    (inverts_text.takes_inField .willTopic).bind fun topic =>
    (inverts_binary.takes_inField .willPayload).bind fun payload =>
    takes_pure (Will.mk flags.qos flags.retain properties topic payload)
  apply takes.congr
  intro will segments
  obtain ⟨qos, retain⟩ := flags
  obtain ⟨qos', retain', properties, topic, payload⟩ := will
  simp [InSequence, willSegments, eq_comm]

theorem takes_announcedWill (flags? : Option WillFlags) :
    (announcedWill flags?).Takes fun will? segments =>
      (will?.map fun will => ⟨will.qos, will.retain⟩) = flags? ∧
        segments = will?.elim [] willSegments := by
  cases flags? with
  | none =>
      apply (takes_pure none).congr
      intro will? segments
      cases will? <;> simp
  | some flags =>
      apply ((takes_willReader flags).map some).congr
      intro will? segments
      cases will? <;> simp

theorem takes_announced {item : Reader α} {segments : α → List Segment}
    (takes : item.Takes fun value form => form = segments value) (present : Bool) :
    (announced present item).Takes fun value? form =>
      value?.isSome = present ∧ form = value?.elim [] segments := by
  cases present with
  | false =>
      apply (takes_pure none).congr
      intro value? form
      cases value? <;> simp
  | true =>
      apply (takes.map some).congr
      intro value? form
      cases value? <;> simp

/-- The flags byte and the fields agree on what is there. -/
theorem flags_eq_iff {packet : Connect} {flags : ConnectFlags} :
    packet.flags = flags ↔ packet.cleanStart = flags.cleanStart ∧
      (packet.will.map fun will => ⟨will.qos, will.retain⟩) = flags.will ∧
      packet.password.isSome = flags.password ∧ packet.username.isSome = flags.username := by
  cases flags
  simp only [Connect.flags, ConnectFlags.mk.injEq]

theorem usesUp_reader :
    reader.UsesUp fun packet segments =>
      packet.clientId.utf8ByteSize ≤ maxClientIdLength ∧ segments = packet.segments := by
  have takes : reader.Takes _ :=
    takes_protocolReader.bind fun _ =>
    (inverts_byte.takes.inField _).bind fun flagsByte =>
    (takes_lift (ConnectFlags.ofByte flagsByte)).bind fun flags =>
    (inverts_uint16.takes.inField _).bind fun keepAlive =>
    (takes_block .properties).bind fun properties =>
    (inverts_text.takes_inField .clientId).bind fun clientId =>
    (takes_lift (checkClientId clientId)).bind fun _ =>
    (takes_announcedWill flags.will).bind fun will =>
    (takes_announced (inverts_text.takes_inField .username) flags.username).bind fun username =>
    (takes_announced (inverts_binary.takes_inField .password) flags.password).bind fun password =>
    takes_pure (Connect.mk flags.cleanStart keepAlive properties clientId will username password)
  apply takes.usesUp.congr
  intro packet segments
  obtain ⟨cleanStart, keepAlive, properties, clientId, will, username, password⟩ := packet
  simp only [InSequence, ConnectFlags.ofByte_eq_ok, checkClientId_eq_ok, mk.injEq, exists_and_left,
    ↓existsAndEq, and_true, List.append_nil, exists_eq_right_right', List.nil_append, exists_const,
    exists_eq_left, List.cons_append, exists_and_right, true_and, Connect.segments]
  constructor
  · intro form
    obtain ⟨flags, ⟨fits, willThere, usernameThere, passwordThere, rfl⟩, rfl⟩ := form
    refine ⟨fits, ?_⟩
    rw [(@flags_eq_iff _ flags).2]
    exact ⟨rfl, willThere, passwordThere, usernameThere⟩
  · intro form
    obtain ⟨fits, rfl⟩ := form
    exact ⟨_, ⟨fits, rfl, rfl, rfl, rfl⟩, rfl⟩

end Connect

/-! ## DISCONNECT -/

namespace Disconnect

/-- The sequences of segments that stand for the packet. -/
inductive IsForm : Disconnect → List Segment → Prop where
  | long (packet : Disconnect) :
      IsForm packet [.field (.byte packet.reasonCode), .block .properties packet.properties]
  | reason (reasonCode : ReasonCode) : IsForm ⟨reasonCode, .empty⟩ [.field (.byte reasonCode)]
  | nothing : IsForm ⟨0, .empty⟩ []

/-- The body in order, in its shortest form. -/
def segments (packet : Disconnect) : List Segment :=
  if packet.properties.isEmpty then
    if packet.reasonCode = 0 then [] else [.field (.byte packet.reasonCode)]
  else [.field (.byte packet.reasonCode), .block .properties packet.properties]

theorem body_eq (packet : Disconnect) : packet.body = writtenSegments packet.segments := by
  unfold body segments
  split
  · split <;> rfl
  · exact congrArg (Draft.byte packet.reasonCode ++ ·) (Draft.append_empty _).symm

theorem isForm_segments (packet : Disconnect) : packet.IsForm packet.segments := by
  obtain ⟨reasonCode, properties⟩ := packet
  unfold segments
  split
  · rename_i isEmpty
    cases Properties.eq_empty_of_isEmpty isEmpty
    split
    · rename_i normal
      cases normal
      exact .nothing
    · exact .reason reasonCode
  · exact .long _

theorem usesUp_reader_of_long {remainingLength : Nat} (long : 2 ≤ remainingLength) :
    (reader remainingLength).UsesUp fun packet segments =>
      segments = [.field (.byte packet.reasonCode), .block .properties packet.properties] := by
  have notEmpty : ¬remainingLength = 0 := by omega
  have takes :=
    (inverts_byte.takes.inField .reasonCode).bind fun reasonCode =>
    (takes_block .properties).bind fun properties =>
    takes_pure (Disconnect.mk reasonCode properties)
  simp only [reader, if_neg notEmpty, if_pos long]
  apply takes.usesUp.congr
  intro packet segments
  obtain ⟨reasonCode, properties⟩ := packet
  simp [InSequence]

/-- A reason code and a block are at least two bytes. -/
theorem two_le_length_of_long {reasonCode : ReasonCode} {properties : Properties} {body : Bytes}
    (spelled : IsSpelling [.field (.byte reasonCode), .block .properties properties] body) :
    2 ≤ body.length := by
  obtain ⟨_, _, ⟨⟩, others, rfl⟩ := isSpelling_field.1 spelled
  obtain ⟨_, _, ⟨block, -, rfl⟩, -, rfl⟩ := isSpelling_block.1 others
  have one : (Draft.byte reasonCode).bytes.length = 1 := rfl
  have pos := block.length.grouped.length_pos
  simp only [Block.bytes, List.length_append, one]
  omega

theorem reader_eq_ok {body : Bytes} {packet : Disconnect} :
    reader body.length body = .ok packet [] ↔
      ∃ segments, packet.IsForm segments ∧ IsSpelling segments body := by
  constructor
  · intro read
    match body with
    | [] =>
        cases read
        exact ⟨[], .nothing, isSpelling_nil.2 rfl⟩
    | [reasonCode] =>
        cases read
        exact ⟨_, .reason reasonCode, isSpelling_field.2 ⟨_, [], rfl, isSpelling_nil.2 rfl, rfl⟩⟩
    | _ :: _ :: others =>
        have long : 2 ≤ others.length + 2 := Nat.le_add_left 2 others.length
        obtain ⟨_, rfl, spelling⟩ := (usesUp_reader_of_long long).1 read
        exact ⟨_, .long packet, spelling⟩
  · intro spelling
    obtain ⟨_, form, spelled⟩ := spelling
    cases form with
    | long =>
        have long := two_le_length_of_long spelled
        exact (usesUp_reader_of_long long).2 ⟨_, rfl, spelled⟩
    | reason reasonCode =>
        obtain ⟨_, _, ⟨⟩, others, rfl⟩ := isSpelling_field.1 spelled
        cases isSpelling_nil.1 others
        rfl
    | nothing =>
        cases isSpelling_nil.1 spelled
        rfl

end Disconnect

end MqttWire
