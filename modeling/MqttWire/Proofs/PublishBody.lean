import MqttWire.Proofs.SubscriptionBody

/-! # The grammar of PUBLISH

The body of a PUBLISH is a topic name, a packet identifier that is not zero, a property block
and the payload. No length is given for the payload: it is whatever follows the block, byte by
byte. The rest of the message stands in the flags of the header.
-/

namespace MqttWire

/-- The body of a PUBLISH whose header has the given flags. -/
structure PublishForm (flags : HeaderFlags) where
  topic : TextForm
  packetId : Word
  properties : BlockForm
  payload : Bytes
  /-- The bits of the QoS are not both set. -/
  legal : ¬(flags.val.testBit 1 ∧ flags.val.testBit 2)
  isName_topic : Topic.IsName topic.text
  packetId_ne_zero : packetId.value ≠ 0

namespace PublishForm

variable {flags : HeaderFlags}

/-- The bytes in front of the payload. -/
def headBytes (form : PublishForm flags) : Bytes :=
  form.topic.bytes ++ (form.packetId.bytes ++ form.properties.bytes)

def bytes (form : PublishForm flags) : Bytes := form.headBytes ++ form.payload

/-- What the bits of the flags and the fields say. -/
def packet (form : PublishForm flags) : Publish where
  dup := flags.val.testBit 3
  qos := .ofBits (flags.val.testBit 1) (flags.val.testBit 2)
  retain := flags.val.testBit 0
  topic := .ofName form.topic.text form.isName_topic
  packetId := form.packetId.value
  properties := form.properties.properties
  payload := form.payload

/-- Every spelling of a packet with these flags has the form. -/
theorem exists_of_isSpelling {packet : Publish} {bytes : Bytes} (flagged : packet.flags = flags)
    (notZero : packet.packetId ≠ 0) (spelled : IsSpelling packet.segments bytes) :
    ∃ form : PublishForm flags, form.packet = packet ∧ form.bytes = bytes := by
  obtain ⟨legal, sameQoS, sameDup, sameRetain⟩ := Publish.flags_eq_iff_bits.1 flagged
  obtain ⟨dup, qos, retain, name, packetId, properties, payload⟩ := packet
  obtain ⟨_, _, written, afterTopic, rfl⟩ := isSpelling_field.1 spelled
  obtain ⟨topic, sameName, rfl⟩ :=
    (TextForm.written_iff _ _).1 (Draft.toExcept_inField_eq_ok.1 written)
  obtain ⟨id, block, _, rfl, rfl, ⟨⟩, rfl⟩ := isSpelling_list.1 afterTopic
  have isName : Topic.IsName topic.text := sameName ▸ name.isName_name
  have sameTopic : Topic.ofName topic.text isName = name := Topic.ofName_eq isName sameName.symm
  refine ⟨⟨topic, id, block, payload, legal, isName, notZero⟩, ?_, ?_⟩
  · rw [packet, sameQoS, sameDup, sameRetain, sameTopic]
  · rw [bytes, headBytes, List.append_assoc, List.append_assoc]
    rfl

theorem isSpelling_bytes (form : PublishForm flags) :
    IsSpelling form.packet.segments form.bytes := by
  have named : form.packet.topic.name = form.topic.text := Topic.name_ofName form.isName_topic
  refine isSpelling_field.2 ⟨form.topic.bytes, _, ?topic, ?others, (List.append_assoc ..).symm⟩
  case topic =>
    rw [Draft.toExcept_inField_eq_ok, TextForm.written_iff]
    exact ⟨form.topic, named.symm, rfl⟩
  case others =>
    exact isSpelling_list.2
      ⟨form.packetId, form.properties, form.payload, rfl, rfl, rfl, (List.append_assoc ..).symm⟩

theorem isSpelling_iff {packet : Publish} {bytes : Bytes} :
    packet.flags = flags ∧ packet.packetId ≠ 0 ∧ IsSpelling packet.segments bytes ↔
      ∃ form : PublishForm flags, form.packet = packet ∧ form.bytes = bytes := by
  constructor
  · intro spelled
    exact exists_of_isSpelling spelled.1 spelled.2.1 spelled.2.2
  · intro spelled
    obtain ⟨form, rfl, rfl⟩ := spelled
    have flagged : form.packet.flags = flags :=
      Publish.flags_eq_iff_bits.2 ⟨form.legal, rfl, rfl, rfl⟩
    exact ⟨flagged, form.packetId_ne_zero, form.isSpelling_bytes⟩

end PublishForm

/-- A body is read as a PUBLISH just when it has the form of one under the flags of the header,
    and as what the form says. The name of the topic is the text that was read, and the payload
    is what is left of the body behind the block. -/
theorem Packet.ofBareBody_publish_iff (flags : HeaderFlags) (remainingLength : Nat) (body : Bytes)
    (packet : Packet) :
    ofBareBody ⟨.publish, flags, remainingLength⟩ body = .ok packet ↔
      ∃ form : PublishForm flags, form.bytes = body ∧ .publish form.packet = packet ∧
        form.packet.topic.name = form.topic.text ∧
        form.packet.payload = body.drop form.headBytes.length := by
  have spelled_iff (found : Publish) :
      (∃ segments, (found.flags = flags ∧ found.packetId ≠ 0 ∧ segments = found.segments) ∧
          IsSpelling segments body) ↔
        ∃ form : PublishForm flags, form.packet = found ∧ form.bytes = body := by
    rw [← PublishForm.isSpelling_iff]
    simp only [and_assoc, exists_and_left, exists_eq_left]
  have read_iff : (Packet.publish <$> Publish.reader flags).all body = .ok packet ↔ _ :=
    (Publish.usesUp_reader flags).all_map_eq_ok spelled_iff Packet.publish
  refine read_iff.trans (exists_congr fun form => and_congr_right ?_)
  rintro rfl
  have payload : form.packet.payload = form.bytes.drop form.headBytes.length :=
    List.drop_left.symm
  exact (and_iff_left ⟨Topic.name_ofName form.isName_topic, payload⟩).symm

/-- Bytes that look like a property and a string behind an empty block are payload. -/
example : Packet.ofBareBody ⟨.publish, 0b1011, 14⟩
    [0, 3, 0x61, 0x2F, 0x62, 0, 7, 0, 36, 1, 0, 1, 0x2B] =
      .ok (.publish {
        dup := true, qos := .atLeastOnce, retain := true,
        topic := ⟨["a", "b"], by simp, by simp [isReservedInTopic]⟩, packetId := 7, properties := .empty,
        payload := [36, 1, 0, 1, 0x2B] }) := by
  decide +kernel

end MqttWire
