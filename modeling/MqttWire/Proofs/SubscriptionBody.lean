import MqttWire.Proofs.Body
import MqttWire.Proofs.PropertyGrammar

/-! # The grammar of SUBSCRIBE and SUBACK

Both bodies are a packet identifier, a property block and a list. The list is not counted: it
is whatever follows the block, entry by entry, up to the last byte.
-/

namespace MqttWire

/-- A packet identifier, a block and what follows. -/
theorem isSpelling_list {packetId : UInt16} {properties : Properties} {list : Draft}
    {bytes : Bytes} :
    IsSpelling [.field (.uint16 packetId), .block .properties properties, .field list] bytes ↔
      ∃ (id : Word) (block : BlockForm) (content : Bytes), id.value = packetId ∧
        block.properties = properties ∧ list.toExcept = .ok content ∧
        id.bytes ++ (block.bytes ++ content) = bytes := by
  simp only [isSpelling_field, isSpelling_block, isSpelling_nil, Word.written_iff, Block.spells_iff]
  constructor
  · intro spelled
    obtain ⟨_, _, ⟨id, sameId, rfl⟩, afterId, rfl⟩ := spelled
    obtain ⟨_, _, ⟨block, sameProperties, rfl⟩, afterBlock, rfl⟩ := afterId
    obtain ⟨content, _, written, rfl, rfl⟩ := afterBlock
    exact ⟨id, block, content, sameId, sameProperties, written, by rw [List.append_nil]⟩
  · intro spelled
    obtain ⟨id, block, content, sameId, sameProperties, written, rfl⟩ := spelled
    exact ⟨_, _, ⟨id, sameId, rfl⟩, ⟨_, content, ⟨block, sameProperties, rfl⟩,
      ⟨content, [], written, rfl, List.append_nil content⟩, rfl⟩, rfl⟩

/-! ## SUBSCRIBE -/

/-- A topic filter and a byte of options. -/
structure FilterForm where
  text : TextForm
  options : UInt8
  legal : SubscriptionOptions.IsLegal options

namespace FilterForm

def bytes (form : FilterForm) : Bytes := form.text.bytes ++ [form.options]

/-- The filter with what the bits of the options say. -/
def filter (form : FilterForm) : SubscriptionFilter where
  filter := form.text.text
  options := .ofBits form.options

theorem written_iff (filter : SubscriptionFilter) (bytes : Bytes) :
    filter.draft.toExcept = .ok bytes ↔
      ∃ form : FilterForm, form.filter = filter ∧ form.bytes = bytes := by
  rw [SubscriptionFilter.draft, Draft.toExcept_append_eq_ok]
  constructor
  · intro written
    obtain ⟨_, _, writtenText, ⟨⟩, rfl⟩ := written
    have writtenText := Draft.toExcept_inField_eq_ok.1 writtenText
    obtain ⟨text, sameText, rfl⟩ := (TextForm.written_iff _ _).1 writtenText
    obtain ⟨legal, sameOptions⟩ :=
      SubscriptionOptions.toByte_eq_iff.1 (Eq.refl filter.options.toByte)
    have sameFilter : FilterForm.filter ⟨text, filter.options.toByte, legal⟩ = filter := by
      rw [FilterForm.filter, sameText, sameOptions]
    exact ⟨⟨text, filter.options.toByte, legal⟩, sameFilter, rfl⟩
  · intro spelled
    obtain ⟨form, rfl, rfl⟩ := spelled
    have sameOptions := SubscriptionOptions.toByte_eq_iff.2 ⟨form.legal, rfl⟩
    refine ⟨form.text.bytes, [form.options], ?_, ?_, rfl⟩
    · exact Draft.toExcept_inField_eq_ok.2 ((TextForm.written_iff _ _).2 ⟨form.text, rfl, rfl⟩)
    · exact congrArg (fun byte => (Draft.byte byte).toExcept) sameOptions

end FilterForm

/-- The body of a SUBSCRIBE. -/
structure SubscribeForm where
  packetId : Word
  properties : BlockForm
  filters : List FilterForm

namespace SubscribeForm

def bytes (form : SubscribeForm) : Bytes :=
  form.packetId.bytes ++ (form.properties.bytes ++ form.filters.flatMap FilterForm.bytes)

/-- The filters stand in the order of the bytes. -/
def packet (form : SubscribeForm) : Subscribe where
  packetId := form.packetId.value
  properties := form.properties.properties
  filters := form.filters.map FilterForm.filter

theorem isSpelling_iff {packet : Subscribe} {bytes : Bytes} :
    IsSpelling packet.segments bytes ↔
      ∃ form : SubscribeForm, form.packet = packet ∧ form.bytes = bytes := by
  rw [Subscribe.segments, isSpelling_list]
  constructor
  · intro spelled
    obtain ⟨packetId, properties, filters⟩ := packet
    obtain ⟨id, block, _, rfl, rfl, written, rfl⟩ := spelled
    obtain ⟨filters, rfl, rfl⟩ := (Draft.concat_written_iff FilterForm.written_iff).1 written
    exact ⟨⟨id, block, filters⟩, rfl, rfl⟩
  · intro spelled
    obtain ⟨form, rfl, rfl⟩ := spelled
    exact ⟨form.packetId, form.properties, _, rfl, rfl,
      (Draft.concat_written_iff FilterForm.written_iff).2 ⟨form.filters, rfl, rfl⟩, rfl⟩

end SubscribeForm

/-! ## SUBACK -/

/-- The body of a SUBACK. -/
structure SubackForm where
  packetId : Word
  properties : BlockForm
  reasons : Bytes

namespace SubackForm

def bytes (form : SubackForm) : Bytes :=
  form.packetId.bytes ++ (form.properties.bytes ++ form.reasons)

/-- Each byte behind the block is a reason code. -/
def packet (form : SubackForm) : Suback where
  packetId := form.packetId.value
  properties := form.properties.properties
  reasons := form.reasons

theorem isSpelling_iff {packet : Suback} {bytes : Bytes} :
    IsSpelling packet.segments bytes ↔
      ∃ form : SubackForm, form.packet = packet ∧ form.bytes = bytes := by
  rw [Suback.segments, isSpelling_list]
  constructor
  · intro spelled
    obtain ⟨packetId, properties, reasons⟩ := packet
    obtain ⟨id, block, _, rfl, rfl, ⟨⟩, rfl⟩ := spelled
    exact ⟨⟨id, block, reasons⟩, rfl, rfl⟩
  · intro spelled
    obtain ⟨form, rfl, rfl⟩ := spelled
    exact ⟨form.packetId, form.properties, form.reasons, rfl, rfl, rfl, rfl⟩

theorem length_reasons (form : SubackForm) : form.packet.reasons.length =
    form.bytes.length - (form.packetId.bytes.length + form.properties.bytes.length) := by
  simp only [packet, bytes, List.length_append]
  omega

end SubackForm

/-- A body is read as a SUBSCRIBE or a SUBACK just when it has the form of one, and as what the
    form says. The reason codes of a SUBACK are as many as the bytes behind the block. -/
theorem Packet.ofBareBody_list_iff (flags : HeaderFlags) (remainingLength : Nat) (body : Bytes)
    (packet : Packet) :
    (ofBareBody ⟨.subscribe, flags, remainingLength⟩ body = .ok packet ↔
      ∃ form : SubscribeForm, form.bytes = body ∧ .subscribe form.packet = packet) ∧
    (ofBareBody ⟨.suback, flags, remainingLength⟩ body = .ok packet ↔
      ∃ form : SubackForm, form.bytes = body ∧ .suback form.packet = packet ∧
        form.packet.reasons.length =
          body.length - (form.packetId.bytes.length + form.properties.bytes.length)) := by
  constructor
  · change (Packet.subscribe <$> Subscribe.reader).all body = .ok packet ↔ _
    refine Subscribe.usesUp_reader.all_map_eq_ok (fun found => ?_) _
    rw [exists_eq_left, SubscribeForm.isSpelling_iff]
  · have spelled_iff (found : Suback) :
        (∃ segments, segments = found.segments ∧ IsSpelling segments body) ↔
          ∃ form : SubackForm, form.packet = found ∧ form.bytes = body := by
      rw [exists_eq_left, SubackForm.isSpelling_iff]
    have read_iff : (Packet.suback <$> Suback.reader).all body = .ok packet ↔ _ :=
      Suback.usesUp_reader.all_map_eq_ok spelled_iff Packet.suback
    refine read_iff.trans (exists_congr fun form => and_congr_right ?_)
    rintro rfl
    exact (and_iff_left form.length_reasons).symm

end MqttWire
