import MqttWire.Packet
import MqttWire.Proofs.Numeral
import MqttWire.Proofs.TopicName

/-! # Announced sizes

The remaining length of a packet is computed from the sizes of its fields before
any field is written. Here every writer is shown to put out as many bytes as its
size announces, from single fields up to the bodies of packets. So the number
that a packet's writer returns, the bytes it counted of the header and those
that it announced, is the number of bytes it put out.
-/

namespace MqttWire

/-- Whatever the draft puts out has the given length. -/
def Draft.Measures (draft : Draft) (size : Nat) : Prop :=
  ∀ ⦃bytes⦄, draft.toExcept = .ok bytes → bytes.length = size

namespace Draft

theorem Measures.of_eq {draft : Draft} {size size' : Nat} (measures : draft.Measures size)
    (same : size = size') : draft.Measures size' :=
  same ▸ measures

theorem Measures.append {first second : Draft} {size size' : Nat} (front : first.Measures size)
    (back : second.Measures size') : (first ++ second).Measures (size + size') := by
  intro bytes written
  obtain ⟨left, right, writtenLeft, writtenRight, rfl⟩ := toExcept_append_eq_ok.1 written
  rw [List.length_append, front writtenLeft, back writtenRight]

theorem Measures.inField {draft : Draft} {size : Nat} (measures : draft.Measures size)
    (field : Field) : (draft.inField field).Measures size :=
  fun _ written => measures (toExcept_inField_eq_ok.1 written)

theorem measures_raw (content : Bytes) : (raw content).Measures content.length := by
  rintro _ ⟨⟩
  rfl

theorem measures_empty : empty.Measures 0 := measures_raw []

theorem measures_require (condition : Bool) (fault : Fault) :
    (require condition fault).Measures 0 := by
  cases condition with
  | false => exact nofun
  | true => exact measures_empty

theorem measures_byte (value : UInt8) : (byte value).Measures 1 := measures_raw [value]

theorem measures_uint16 (value : UInt16) : (uint16 value).Measures 2 := measures_raw _

theorem measures_uint32 (value : UInt32) : (uint32 value).Measures 4 := measures_raw _

theorem measures_measured (measured : Measured) (content : Bytes) :
    (Draft.measured measured content).Measures (2 + content.length) := by
  unfold Draft.measured
  split
  · exact (measures_uint16 _).append (measures_raw content)
  · exact nofun

theorem measures_binary (content : Bytes) : (binary content).Measures (binarySize content) :=
  measures_measured .binary content

theorem measures_text (content : String) : (text content).Measures (textSize content) :=
  measures_measured .text (Utf8.encode content)

theorem measures_optional {write : α → Draft} {size : α → Nat}
    (measures : ∀ value, (write value).Measures (size value)) (value? : Option α) :
    (optional value? write).Measures (value?.elim 0 size) := by
  cases value? with
  | none => exact measures_empty
  | some value => exact measures value

theorem measures_concat_map {write : α → Draft} {size : α → Nat}
    (measures : ∀ value, (write value).Measures (size value)) (list : List α) :
    (concat (list.map write)).Measures (list.foldr (fun value total => size value + total) 0) := by
  induction list with
  | nil => exact measures_empty
  | cons head tail ih => exact (measures head).append ih

end Draft

open Draft

theorem VarInt.measures_draft (value : Nat) : (VarInt.draft value).Measures (VarInt.size value) := by
  intro bytes written
  obtain ⟨numeral, isShortest, rfl, rfl⟩ := Numeral.toExcept_draft_eq_ok.1 written
  exact isShortest.length_eq

theorem TextPair.measures_draft (pair : TextPair) : pair.draft.Measures pair.size :=
  (measures_text pair.key).append (measures_text pair.value)

theorem Datum.measures_draft (datum : Datum) : datum.draft.Measures datum.size := by
  cases datum with
  | byte value => exact measures_byte value
  | uint16 value => exact measures_uint16 value
  | uint32 value => exact measures_uint32 value
  | varInt value => exact VarInt.measures_draft value
  | text value => exact measures_text value
  | pair value => exact value.measures_draft
  | binary value => exact measures_binary value

theorem Property.measures_draft (property : Property) : property.draft.Measures property.size :=
  (VarInt.measures_draft property.id.code).append property.value.measures_draft

theorem Properties.measures_draft (properties : Properties) :
    properties.draft.Measures properties.encodedLength :=
  (VarInt.measures_draft properties.size).append
    (measures_concat_map Property.measures_draft properties.toList)

theorem FixedHeader.measures_draft (header : FixedHeader) :
    header.draft.Measures header.encodedLength :=
  (measures_byte header.firstByte).append (VarInt.measures_draft header.remainingLength)

/-! ## Bodies -/

theorem Connack.measures_body (packet : Connack) : packet.body.Measures packet.remainingLength := by
  have properties := packet.properties.measures_draft.inField .properties
  refine ((measures_byte _).append ((measures_byte _).append
    (properties.append measures_empty))).of_eq ?_
  simp only [remainingLength]
  omega

theorem Suback.measures_body (packet : Suback) : packet.body.Measures packet.remainingLength := by
  have properties := packet.properties.measures_draft.inField .properties
  refine ((measures_uint16 _).append (properties.append
    ((measures_raw packet.reasons).append measures_empty))).of_eq ?_
  simp only [remainingLength]
  omega

theorem SubscriptionFilter.measures_draft (filter : SubscriptionFilter) :
    filter.draft.Measures filter.size :=
  ((measures_text filter.filter).inField .topicFilter).append (measures_byte filter.options.toByte)

theorem Subscribe.measures_body (packet : Subscribe) :
    packet.body.Measures packet.remainingLength := by
  have properties := packet.properties.measures_draft.inField .properties
  have filters := measures_concat_map SubscriptionFilter.measures_draft packet.filters
  refine ((measures_uint16 _).append (properties.append (filters.append measures_empty))).of_eq ?_
  simp only [remainingLength]
  omega

theorem Publish.measures_body (packet : Publish) : packet.body.Measures packet.remainingLength := by
  have topic := (measures_text packet.topic.name).inField .topic
  have properties := packet.properties.measures_draft.inField .properties
  refine (topic.append ((measures_uint16 _).append (properties.append
    ((measures_raw packet.payload).append measures_empty)))).of_eq ?_
  simp only [remainingLength, textSize, Topic.utf8ByteSize_name]
  omega

theorem Disconnect.measures_body (packet : Disconnect) :
    packet.body.Measures packet.remainingLength := by
  unfold body remainingLength
  split
  · split
    · exact measures_empty
    · exact measures_byte _
  · exact (measures_byte _).append (packet.properties.measures_draft.inField .properties)

theorem Connect.measures_willDraft (will : Will) : (willDraft will).Measures will.size := by
  have properties := will.properties.measures_draft.inField .willProperties
  have topic := (measures_text will.topic).inField .willTopic
  have payload := (measures_binary will.payload).inField .willPayload
  refine (properties.append (topic.append (payload.append measures_empty))).of_eq ?_
  simp only [Will.size]
  omega

theorem Connect.measures_body (packet : Connect) : packet.body.Measures packet.remainingLength := by
  have prelude := measures_raw (nameField ++ [protocolLevel])
  have properties := packet.properties.measures_draft.inField .properties
  have clientId := (measures_text packet.clientId).inField .clientId
  have will := measures_optional measures_willDraft packet.will
  have username := measures_optional (fun name => (measures_text name).inField .username)
    packet.username
  have password := measures_optional (fun secret => (measures_binary secret).inField .password)
    packet.password
  refine (prelude.append ((measures_byte _).append ((measures_uint16 _).append
    (properties.append (clientId.append (will.append (username.append
      (password.append measures_empty)))))))).of_eq ?_
  have preludeLength : (nameField ++ [protocolLevel]).length = 7 := rfl
  simp only [remainingLength, preludeLength]
  omega

/-! ## Counting writers -/

/-- Checks that put out nothing leave the count to what follows. -/
theorem Draft.write_checks_append {checks rest : Draft} (nothing : checks.Measures 0) :
    (checks ++ rest).write = (do discard checks.write; rest.write) := by
  funext buffer
  obtain ⟨bytes, _ | error⟩ := checks
  · obtain rfl : bytes = [] := List.eq_nil_of_length_eq_zero (nothing rfl)
    exact congrArg rest.write (List.append_nil buffer).symm
  · rfl

/-- The announced length may stand for the bytes of a body that is as long. -/
theorem FixedHeader.writeWith_eq {header : FixedHeader} {body : Draft}
    (measures : body.Measures header.remainingLength) :
    header.writeWith body = (header.draft ++ body).write := by
  rw [Draft.write_append, writeWith, write_eq]
  refine congrArg (header.draft.write >>= ·) (funext fun headerLength => funext fun buffer => ?_)
  obtain ⟨bytes, _ | error⟩ := body
  · have announced : bytes.length = header.remainingLength := measures rfl
    rw [← announced]
    rfl
  · rfl

theorem Connack.write_eq (packet : Connack) : packet.write = packet.draft.write :=
  FixedHeader.writeWith_eq packet.measures_body

theorem Suback.write_eq (packet : Suback) : packet.write = packet.draft.write :=
  FixedHeader.writeWith_eq packet.measures_body

theorem Subscribe.write_eq (packet : Subscribe) : packet.write = packet.draft.write :=
  FixedHeader.writeWith_eq packet.measures_body

theorem Disconnect.write_eq (packet : Disconnect) : packet.write = packet.draft.write :=
  FixedHeader.writeWith_eq packet.measures_body

theorem Publish.write_eq (packet : Publish) : packet.write = packet.draft.write := by
  have checked : packet.checks.Measures 0 := (measures_require _ _).append (measures_require _ _)
  rw [draft, append_assoc, write_checks_append checked, write,
    FixedHeader.writeWith_eq packet.measures_body]

theorem Connect.write_eq (packet : Connect) : packet.write = packet.draft.write := by
  have checked : packet.checks.Measures 0 := measures_require _ _
  rw [draft, append_assoc, write_checks_append checked, write,
    FixedHeader.writeWith_eq packet.measures_body]

namespace Packet

theorem bareWrite_eq (packet : Packet) : packet.bareWrite = packet.bareDraft.write := by
  cases packet with
  | connect packet => exact packet.write_eq
  | connack packet => exact packet.write_eq
  | publish packet => exact packet.write_eq
  | subscribe packet => exact packet.write_eq
  | suback packet => exact packet.write_eq
  | disconnect packet => exact packet.write_eq

theorem write_eq (packet : Packet) : packet.write = packet.draft.write := by
  rw [write, bareWrite_eq, draft, write_within]

theorem encode_eq (packet : Packet) : packet.encode = packet.draft.toExcept := by
  rw [encode, write_eq]
  obtain ⟨bytes, _ | error⟩ := packet.draft <;> rfl

theorem write_eq_ok {packet : Packet} {buffer after : Bytes} {count : Nat} :
    packet.write buffer = .ok count after ↔
      ∃ bytes, packet.encode = .ok bytes ∧ bytes.length = count ∧ buffer ++ bytes = after := by
  rw [write_eq, encode_eq, Draft.write_eq_ok]

theorem bareWrite_eq_ok {packet : Packet} {buffer after : Bytes} {count : Nat} :
    packet.bareWrite buffer = .ok count after ↔
      ∃ bytes, packet.encode = .ok bytes ∧ bytes.length = count ∧ buffer ++ bytes = after := by
  rw [bareWrite_eq, Draft.write_eq_ok]
  simp only [encode_eq, draft, Draft.toExcept_within_eq_ok]

end Packet

end MqttWire
