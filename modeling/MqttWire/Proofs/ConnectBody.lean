import MqttWire.Proofs.Body
import MqttWire.Proofs.PropertyGrammar

/-! # The grammar of CONNECT

The body of a CONNECT starts with seven fixed bytes. Behind them come a byte of flags, the
fields that are always there and those that the flags announce, and nothing else. Bodies of
this form are read, each bit and each field as it stands, and no others are.
-/

namespace MqttWire

/-! ## Optional fields -/

/-- A field that may be absent has the form that it has when it is there, or no bytes. -/
theorem isSpelling_elim {Form : Type} {value : Form → α} {formBytes : Form → Bytes}
    {value? : Option α} {segments : α → List Segment} {bytes : Bytes}
    (spells : ∀ found ∈ value?, ∀ bytes, IsSpelling (segments found) bytes ↔
      ∃ form, value form = found ∧ formBytes form = bytes) :
    IsSpelling (value?.elim [] segments) bytes ↔
      ∃ form? : Option Form, form?.map value = value? ∧ form?.elim [] formBytes = bytes := by
  cases value? with
  | none =>
      rw [Option.elim_none, isSpelling_nil]
      constructor
      · rintro rfl
        exact ⟨none, rfl, rfl⟩
      · intro spelled
        obtain ⟨form?, absent, rfl⟩ := spelled
        rw [Option.map_eq_none_iff.1 absent]
        rfl
  | some found =>
      rw [Option.elim_some, spells found rfl]
      constructor
      · intro spelled
        obtain ⟨form, rfl, rfl⟩ := spelled
        exact ⟨some form, rfl, rfl⟩
      · intro spelled
        obtain ⟨form?, there, rfl⟩ := spelled
        obtain ⟨form, rfl, rfl⟩ := Option.map_eq_some_iff.1 there
        exact ⟨form, rfl, rfl⟩

theorem isSpelling_elim_field {Form : Type} {value : Form → α} {formBytes : Form → Bytes}
    {draft : α → Draft} {name : Field} {value? : Option α} {bytes : Bytes}
    (written_iff : ∀ found bytes, (draft found).toExcept = .ok bytes ↔
      ∃ form, value form = found ∧ formBytes form = bytes) :
    IsSpelling (value?.elim [] fun found => [.field ((draft found).inField name)]) bytes ↔
      ∃ form? : Option Form, form?.map value = value? ∧ form?.elim [] formBytes = bytes :=
  isSpelling_elim fun found _ bytes => by
    rw [Reader.isSpelling_single_field, Draft.toExcept_inField_eq_ok, written_iff]

/-- The properties of a will, its topic and its payload. -/
structure WillForm where
  properties : BlockForm
  topic : TextForm
  payload : BinaryForm

namespace WillForm

def bytes (form : WillForm) : Bytes :=
  form.properties.bytes ++ (form.topic.bytes ++ form.payload.bytes)

/-- The will that goes with its flags. -/
def will (flags : WillFlags) (form : WillForm) : Will where
  qos := flags.qos
  retain := flags.retain
  properties := form.properties.properties
  topic := form.topic.text
  payload := form.payload.content

theorem isSpelling_iff {will : Will} {bytes : Bytes} :
    IsSpelling (Connect.willSegments will) bytes ↔
      ∃ form : WillForm, form.will ⟨will.qos, will.retain⟩ = will ∧ form.bytes = bytes := by
  obtain ⟨qos, retain, properties, topic, payload⟩ := will
  simp only [Connect.willSegments, isSpelling_block, isSpelling_field, isSpelling_nil,
    Draft.toExcept_inField_eq_ok, Block.spells_iff, TextForm.written_iff, BinaryForm.written_iff,
    WillForm.will, Will.mk.injEq, true_and]
  constructor
  · intro spelled
    obtain ⟨_, _, ⟨block, rfl, rfl⟩, ⟨_, _, ⟨topic, rfl, rfl⟩, last, rfl⟩, rfl⟩ := spelled
    obtain ⟨_, _, ⟨payload, rfl, rfl⟩, rfl, rfl⟩ := last
    exact ⟨⟨block, topic, payload⟩, ⟨rfl, rfl, rfl⟩, by rw [List.append_nil, bytes]⟩
  · intro spelled
    obtain ⟨⟨block, topic, payload⟩, ⟨rfl, rfl, rfl⟩, rfl⟩ := spelled
    exact ⟨_, _, ⟨block, rfl, rfl⟩, ⟨_, _, ⟨topic, rfl, rfl⟩,
      ⟨_, [], ⟨payload, rfl, rfl⟩, rfl, List.append_nil _⟩, rfl⟩, rfl⟩

end WillForm

/-- What a flags byte says of the fields that go with it. -/
theorem Connect.toByte_flags_iff {packet : Connect} {byte : UInt8} :
    packet.flags.toByte = byte ↔ ConnectFlags.IsLegal byte ∧ packet.cleanStart = hasBit byte 1 ∧
      (packet.will.isSome = hasBit byte 2 ∧
        ∀ will ∈ packet.will, ⟨will.qos, will.retain⟩ = ConnectFlags.willFlagsOfBits byte) ∧
      packet.password.isSome = hasBit byte 6 ∧ packet.username.isSome = hasBit byte 7 := by
  have will : (packet.will.map fun will => ⟨will.qos, will.retain⟩) =
        (ConnectFlags.ofBits byte).will ↔
      packet.will.isSome = hasBit byte 2 ∧
        ∀ will ∈ packet.will, ⟨will.qos, will.retain⟩ = ConnectFlags.willFlagsOfBits byte := by
    simp only [ConnectFlags.ofBits]
    cases packet.will <;> cases hasBit byte 2 <;> simp
  rw [ConnectFlags.toByte_eq_iff, eq_comm (a := ConnectFlags.ofBits byte), flags_eq_iff, will]
  rfl

theorem isSpelling_will {will? : Option Will} {flags : WillFlags} {bytes : Bytes}
    (flagged : ∀ will ∈ will?, ⟨will.qos, will.retain⟩ = flags) :
    IsSpelling (will?.elim [] Connect.willSegments) bytes ↔ ∃ form? : Option WillForm,
      form?.map (WillForm.will flags) = will? ∧ form?.elim [] WillForm.bytes = bytes :=
  isSpelling_elim fun will member bytes => by
    rw [WillForm.isSpelling_iff, flagged will member]

/-! ## Bodies -/

/-- The body of a CONNECT. -/
structure ConnectForm where
  flags : UInt8
  keepAlive : Word
  properties : BlockForm
  clientId : TextForm
  will : Option WillForm
  username : Option TextForm
  password : Option BinaryForm
  legal : ConnectFlags.IsLegal flags
  clientId_short : clientId.length.toNat ≤ 23
  /-- Bit 2 announces a will. -/
  isSome_will : will.isSome = hasBit flags 2
  /-- Bit 7 announces a user name, which may still be empty. -/
  isSome_username : username.isSome = hasBit flags 7
  /-- Bit 6 announces a password, which may still be empty. -/
  isSome_password : password.isSome = hasBit flags 6

namespace ConnectForm

/-- The fixed bytes are a length, the letters `MQTT` and the protocol level. -/
def bytes (form : ConnectForm) : Bytes :=
  [0x00, 0x04, 0x4D, 0x51, 0x54, 0x54, 0x05] ++ ([form.flags] ++ (form.keepAlive.bytes ++
    (form.properties.bytes ++ (form.clientId.bytes ++ (form.will.elim [] WillForm.bytes ++
      (form.username.elim [] TextForm.bytes ++ form.password.elim [] BinaryForm.bytes))))))

/-- What the bits of the flags and the fields say. -/
def packet (form : ConnectForm) : Connect where
  cleanStart := hasBit form.flags 1
  keepAlive := form.keepAlive.value
  properties := form.properties.properties
  clientId := form.clientId.text
  will := form.will.map (WillForm.will (ConnectFlags.willFlagsOfBits form.flags))
  username := form.username.map TextForm.text
  password := form.password.map BinaryForm.content

theorem toByte_flags_packet (form : ConnectForm) : form.packet.flags.toByte = form.flags := by
  rw [Connect.toByte_flags_iff]
  refine ⟨form.legal, rfl, ⟨?_, fun will member => ?_⟩, ?_, ?_⟩
  · rw [packet, Option.isSome_map, form.isSome_will]
  · obtain ⟨_, -, rfl⟩ := Option.map_eq_some_iff.1 member
    rfl
  · rw [packet, Option.isSome_map, form.isSome_password]
  · rw [packet, Option.isSome_map, form.isSome_username]

/-- Every spelling of a packet has the form. -/
theorem exists_of_isSpelling {packet : Connect} {bytes : Bytes}
    (short : packet.clientId.utf8ByteSize ≤ maxClientIdLength)
    (spelled : IsSpelling packet.segments bytes) :
    ∃ form : ConnectForm, form.packet = packet ∧ form.bytes = bytes := by
  obtain ⟨legal, cleanStart, ⟨isSome_will, flagged⟩, isSome_password, isSome_username⟩ :=
    Connect.toByte_flags_iff.1 (Eq.refl packet.flags.toByte)
  simp only [Connect.segments, List.cons_append, List.nil_append] at spelled
  obtain ⟨_, _, ⟨⟩, afterProtocol, rfl⟩ := isSpelling_field.1 spelled
  obtain ⟨_, _, ⟨⟩, afterFlags, rfl⟩ := isSpelling_field.1 afterProtocol
  clear spelled afterProtocol
  generalize packet.flags.toByte = flags at *
  obtain ⟨_, keepAlive, properties, clientId, will, username, password⟩ := packet
  obtain ⟨_, _, written, afterKeepAlive, rfl⟩ := isSpelling_field.1 afterFlags
  obtain ⟨keepAlive, rfl, rfl⟩ := Word.written_iff.1 written
  obtain ⟨_, _, written, afterProperties, rfl⟩ := isSpelling_block.1 afterKeepAlive
  obtain ⟨properties, rfl, rfl⟩ := Block.spells_iff.1 written
  obtain ⟨_, _, written, optional, rfl⟩ := isSpelling_field.1 afterProperties
  have writtenId := Draft.toExcept_inField_eq_ok.1 written
  obtain ⟨clientId, rfl, rfl⟩ := (TextForm.written_iff _ _).1 writtenId
  obtain ⟨_, _, written, afterWill, rfl⟩ := isSpelling_append.1 optional
  obtain ⟨will, rfl, rfl⟩ := (isSpelling_will flagged).1 written
  obtain ⟨_, _, written, afterUsername, rfl⟩ := isSpelling_append.1 afterWill
  obtain ⟨username, rfl, rfl⟩ := (isSpelling_elim_field TextForm.written_iff).1 written
  obtain ⟨password, rfl, rfl⟩ := (isSpelling_elim_field BinaryForm.written_iff).1 afterUsername
  rw [Option.isSome_map] at isSome_will isSome_username isSome_password
  have clientId_short : clientId.length.toNat ≤ 23 := by
    rw [clientId.toNat_length]
    exact short
  exact ⟨⟨flags, keepAlive, properties, clientId, will, username, password, legal, clientId_short,
    isSome_will, isSome_username, isSome_password⟩,
    Connect.mk.injEq .. ▸ ⟨cleanStart.symm, rfl, rfl, rfl, rfl, rfl, rfl⟩, rfl⟩

/-- Every form spells its packet. -/
theorem isSpelling_bytes (form : ConnectForm) : IsSpelling form.packet.segments form.bytes := by
  have same := form.toByte_flags_packet
  obtain ⟨-, -, ⟨-, flagged⟩, -, -⟩ := Connect.toByte_flags_iff.1 same
  simp only [Connect.segments, List.cons_append, List.nil_append]
  refine isSpelling_field.2 ⟨_, _, rfl, ?_, rfl⟩
  refine isSpelling_field.2 ⟨_, _, congrArg Draft.toExcept (congrArg Draft.byte same), ?_, rfl⟩
  refine isSpelling_field.2 ⟨_, _, Word.written_iff.2 ⟨form.keepAlive, rfl, rfl⟩, ?_, rfl⟩
  refine isSpelling_block.2 ⟨_, _, Block.spells_iff.2 ⟨form.properties, rfl, rfl⟩, ?_, rfl⟩
  refine isSpelling_field.2 ⟨_, _, ?clientId, ?_, rfl⟩
  case clientId =>
    exact Draft.toExcept_inField_eq_ok.2 ((TextForm.written_iff _ _).2 ⟨form.clientId, rfl, rfl⟩)
  refine isSpelling_append.2 ⟨_, _, (isSpelling_will flagged).2 ⟨form.will, rfl, rfl⟩, ?_, rfl⟩
  refine isSpelling_append.2 ⟨_, _, ?username, ?_, rfl⟩
  case username => exact (isSpelling_elim_field TextForm.written_iff).2 ⟨form.username, rfl, rfl⟩
  exact (isSpelling_elim_field BinaryForm.written_iff).2 ⟨form.password, rfl, rfl⟩

theorem isSpelling_iff {packet : Connect} {bytes : Bytes} :
    packet.clientId.utf8ByteSize ≤ maxClientIdLength ∧ IsSpelling packet.segments bytes ↔
      ∃ form : ConnectForm, form.packet = packet ∧ form.bytes = bytes := by
  constructor
  · intro spelled
    exact exists_of_isSpelling spelled.1 spelled.2
  · intro spelled
    obtain ⟨form, rfl, rfl⟩ := spelled
    have short := form.clientId_short
    rw [form.clientId.toNat_length] at short
    exact ⟨short, form.isSpelling_bytes⟩

end ConnectForm

/-- A body is read as a CONNECT just when it has the form of one, and as what the form says. -/
theorem Packet.ofBareBody_connect_iff (flags : HeaderFlags) (remainingLength : Nat) (body : Bytes)
    (packet : Packet) :
    ofBareBody ⟨.connect, flags, remainingLength⟩ body = .ok packet ↔
      ∃ form : ConnectForm, form.bytes = body ∧ .connect form.packet = packet := by
  change (Packet.connect <$> Connect.reader).all body = .ok packet ↔ _
  refine Connect.usesUp_reader.all_map_eq_ok (fun found => ?_) _
  rw [← ConnectForm.isSpelling_iff]
  simp only [and_assoc, exists_and_left, exists_eq_left]

/-- An empty user name and an empty password are there. -/
example : Packet.ofBareBody ⟨.connect, .clear, 18⟩
    [0, 4, 0x4D, 0x51, 0x54, 0x54, 5, 0xC2, 0, 10, 0, 0, 1, 0x63, 0, 0, 0, 0] =
      .ok (.connect {
        cleanStart := true, keepAlive := 10, properties := .empty, clientId := "c", will := none,
        username := some "", password := some [] }) := by
  decide +kernel

end MqttWire
