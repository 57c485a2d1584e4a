import MqttWire.Proofs.FieldForm
import MqttWire.Proofs.Truncation

/-! # The grammar of property blocks

A property block is the length of its content and then entries up to the end of that content.
The reader takes what has this form and nothing else, and the set that it builds holds the
entries sorted by identifier. Content that ends inside an entry, an identifier that is unknown
and a length for which there is too little content each have their error.
-/

namespace MqttWire

/-! ## Entries -/

theorem Entry.eq_of_parts {first second : Entry} (sameProperty : first.property = second.property)
    (sameKey : first.key = second.key) (samePayload : first.payload = second.payload) :
    first = second := by
  cases first
  cases second
  cases sameProperty
  cases sameKey
  cases samePayload
  rfl

/-- The code of an identifier, and a value of the kind that the identifier fixes. -/
structure PropertyForm where
  id : PropertyId
  key : Numeral
  key_value : key.value = id.code
  value : DatumForm id.kind

namespace PropertyForm

def bytes (form : PropertyForm) : Bytes := form.key.bytes ++ form.value.bytes

/-- The property that the bytes stand for. -/
def property (form : PropertyForm) : Property where
  id := form.id
  value := form.value.datum
  kind_value := form.value.kind_datum
  overflow_value := form.value.overflow_datum

def entry (form : PropertyForm) : Entry where
  property := form.property
  key := form.key
  payload := form.value.payload
  key_value := form.key_value
  payload_datum := form.value.datum_payload

@[simp] theorem bytes_entry (form : PropertyForm) : form.entry.bytes = form.bytes := by
  simp [Entry.bytes, entry, bytes]

/-- Entries have no other form. -/
theorem entry_surjective : Function.Surjective entry := by
  intro given
  have sameKind : given.payload.datum.kind = given.property.id.kind := by
    rw [given.payload_datum, given.property.kind_value]
  obtain ⟨value, samePayload⟩ := Payload.exists_form sameKind
  have sameValue : value.datum = given.property.value := by
    rw [← value.datum_payload, samePayload, given.payload_datum]
  let form : PropertyForm := ⟨given.property.id, given.key, given.key_value, value⟩
  have sameProperty : form.property = given.property :=
    Property.pair_injective (congrArg (Prod.mk given.property.id) sameValue)
  exact ⟨form, Entry.eq_of_parts sameProperty rfl samePayload⟩

theorem flatMap_bytes_entry (forms : List PropertyForm) :
    (forms.map entry).flatMap Entry.bytes = forms.flatMap bytes := by
  simp only [List.flatMap_map, bytes_entry]

end PropertyForm

/-! ## Blocks -/

theorem Properties.toList_ofList (list : List Property) :
    (ofList list).toList = sortedBy Property.id list :=
  Ordered.eq_sortedBy (ofList list).ordered fun id => itemsOf_extend empty list id

/-- The length of the content, and entries that make up the content. -/
structure BlockForm where
  length : Numeral
  entries : List PropertyForm
  measured : length.value = (entries.flatMap PropertyForm.bytes).length

namespace BlockForm

def bytes (form : BlockForm) : Bytes :=
  form.length.bytes ++ form.entries.flatMap PropertyForm.bytes

/-- The properties of the entries, sorted by identifier. Those of one identifier stay in the
    order in which their entries stand. -/
def properties (form : BlockForm) : Properties where
  toList := sortedBy Property.id (form.entries.map PropertyForm.property)
  ordered := ordered_sortedBy _

def block (form : BlockForm) : Block where
  length := form.length
  entries := form.entries.map PropertyForm.entry
  measured := by rw [form.measured, PropertyForm.flatMap_bytes_entry]

theorem bytes_block (form : BlockForm) : form.block.bytes = form.bytes := by
  rw [Block.bytes, block, PropertyForm.flatMap_bytes_entry, bytes]

theorem properties_block (form : BlockForm) : form.block.properties = form.properties := by
  have carried : form.block.entries.map Entry.property = form.entries.map PropertyForm.property :=
    List.map_map
  apply Properties.eq_of_toList_eq
  rw [Block.properties, carried, Properties.toList_ofList, properties]

/-- Blocks have no other form. -/
theorem block_surjective : Function.Surjective block := by
  rintro ⟨length, entries, measured⟩
  obtain ⟨forms, rfl⟩ := PropertyForm.entry_surjective.list_map entries
  rw [PropertyForm.flatMap_bytes_entry] at measured
  exact ⟨⟨length, forms, measured⟩, rfl⟩

end BlockForm

theorem Block.spells_iff {properties : Properties} {bytes : Bytes} :
    Block.Spells properties bytes ↔
      ∃ form : BlockForm, form.properties = properties ∧ form.bytes = bytes := by
  constructor
  · intro spelled
    obtain ⟨block, rfl, rfl⟩ := spelled
    obtain ⟨form, rfl⟩ := BlockForm.block_surjective block
    exact ⟨form, form.properties_block.symm, form.bytes_block.symm⟩
  · intro spelled
    obtain ⟨form, rfl, rfl⟩ := spelled
    exact ⟨form.block, form.properties_block, form.bytes_block⟩

/-! ## Content that is refused -/

theorem PropertyForm.reader_bytes (form : PropertyForm) (rest : Bytes) :
    Property.reader (form.bytes ++ rest) = .ok form.property rest :=
  Entry.accepts_reader.read ⟨form.entry, rfl, form.bytes_entry⟩ rest

theorem Property.reader_of_unknown {key : Numeral}
    (unknown : ∀ id : PropertyId, id.code ≠ key.value) (rest : Bytes) :
    Property.reader (key.bytes ++ rest) = .error (Fault.unknownProperty key.value) rest := by
  have notFound : PropertyId.ofCode? key.value = none := by
    cases found : PropertyId.ofCode? key.value with
    | none => rfl
    | some id => exact absurd (PropertyId.code_of_ofCode? found) (unknown id)
  simp only [Property.reader, bind, EStateM.bind, key.reader_bytes, notFound]
  rfl

namespace Properties

theorem reader_eq_ok {input rest : Bytes} {properties : Properties} :
    reader input = .ok properties rest ↔
      ∃ form : BlockForm, form.properties = properties ∧ form.bytes ++ rest = input := by
  rw [Block.accepts_reader]
  constructor
  · intro spelled
    obtain ⟨_, spelled, rfl⟩ := spelled
    obtain ⟨form, rfl, rfl⟩ := Block.spells_iff.1 spelled
    exact ⟨form, rfl, rfl⟩
  · intro spelled
    obtain ⟨form, rfl, rfl⟩ := spelled
    exact ⟨form.bytes, Block.spells_iff.2 ⟨form, rfl, rfl⟩, rfl⟩

/-- Content that is refused behind whole entries is refused with them. -/
theorem reader_of_refused {length : Numeral} {entries : List PropertyForm} {tail left : Bytes}
    {error : Error} (measured : length.value = (entries.flatMap PropertyForm.bytes ++ tail).length)
    (some : tail ≠ []) (refused : Property.reader tail = .error error left) (rest : Bytes) :
    reader (length.bytes ++ (entries.flatMap PropertyForm.bytes ++ tail ++ rest)) =
      .error error rest := by
  have taken : Reader.take length.value (entries.flatMap PropertyForm.bytes ++ tail ++ rest) =
      .ok (entries.flatMap PropertyForm.bytes ++ tail) rest :=
    Reader.take_eq_ok.2 ⟨measured.symm, rfl⟩
  have whole : List.Forall₂ Entry.Spells (entries.map PropertyForm.property)
      (entries.map PropertyForm.bytes) := by
    rw [List.forall₂_map_left_iff, List.forall₂_map_right_iff, List.forall₂_same]
    exact fun form _ => ⟨form.entry, rfl, form.bytes_entry⟩
  have stopped : (Reader.untilEnd Property.reader Property.advances_reader).all
      (entries.flatMap PropertyForm.bytes ++ tail) = .error error := by
    rw [List.flatMap_def]
    exact Reader.all_of_error (Reader.untilEnd_of_error Entry.accepts_reader whole some refused)
  simp only [reader, bind, EStateM.bind, length.reader_bytes, taken, stopped]
  rfl

/-- What ends before the content does is short of bytes. -/
theorem reader_of_shortage {length : Numeral} {left : Bytes} (short : left.length < length.value) :
    reader (length.bytes ++ left) =
      .error (Fault.bufferTooSmall length.value left.length) left := by
  simp only [reader, bind, EStateM.bind, length.reader_bytes, Reader.take_of_short short]

theorem reader_of_unknown {length key : Numeral} {entries : List PropertyForm} {tail : Bytes}
    (measured : length.value =
      (entries.flatMap PropertyForm.bytes ++ (key.bytes ++ tail)).length)
    (unknown : ∀ id : PropertyId, id.code ≠ key.value) (rest : Bytes) :
    reader (length.bytes ++ (entries.flatMap PropertyForm.bytes ++ (key.bytes ++ tail) ++ rest)) =
      .error (Fault.unknownProperty key.value) rest := by
  have some : key.bytes ++ tail ≠ [] :=
    List.append_ne_nil_of_left_ne_nil (List.ne_nil_of_length_pos key.grouped.length_pos) _
  exact reader_of_refused measured some (Property.reader_of_unknown unknown tail) rest

/-- Content that ends within an entry is short of bytes, whatever stands behind it. -/
theorem reader_of_crossing {length : Numeral} {entries : List PropertyForm}
    {crossing : PropertyForm} {front back : Bytes}
    (measured : length.value = (entries.flatMap PropertyForm.bytes ++ front).length)
    (begun : front ≠ []) (unfinished : back ≠ []) (whole : front ++ back = crossing.bytes)
    (rest : Bytes) :
    ∃ needed got, got < needed ∧
      reader (length.bytes ++ (entries.flatMap PropertyForm.bytes ++ front ++ rest)) =
        .error (Fault.bufferTooSmall needed got) rest := by
  have complete : Property.reader (front ++ back) = .ok crossing.property [] := by
    have read := crossing.reader_bytes []
    rwa [List.append_nil, ← whole] at read
  obtain ⟨error, left, ⟨needed, got, short, rfl⟩, refused⟩ :=
    Property.steady_reader.runs_short complete unfinished
  exact ⟨needed, got, short, reader_of_refused measured begun refused rest⟩

/-- What is read as a property set is a block, and it is read as the properties of the entries
    in their sorted order. A length beyond the end of the bytes, an identifier that is unknown
    and an entry beyond the length of the content are errors. -/
theorem reader_grammar :
    (∀ input properties rest, reader input = .ok properties rest ↔
      ∃ form : BlockForm, form.properties = properties ∧ form.bytes ++ rest = input) ∧
    (∀ (length : Numeral) (left : Bytes), left.length < length.value →
      reader (length.bytes ++ left) =
        .error (Fault.bufferTooSmall length.value left.length) left) ∧
    (∀ (length : Numeral) (entries : List PropertyForm) (key : Numeral) (tail rest : Bytes),
      length.value = (entries.flatMap PropertyForm.bytes ++ (key.bytes ++ tail)).length →
      (∀ id : PropertyId, id.code ≠ key.value) →
      reader (length.bytes ++ (entries.flatMap PropertyForm.bytes ++ (key.bytes ++ tail) ++ rest)) =
        .error (Fault.unknownProperty key.value) rest) ∧
    ∀ (length : Numeral) (entries : List PropertyForm) (crossing : PropertyForm)
      (front back rest : Bytes),
      length.value = (entries.flatMap PropertyForm.bytes ++ front).length →
      front ≠ [] → back ≠ [] → front ++ back = crossing.bytes →
      ∃ needed got, got < needed ∧
        reader (length.bytes ++ (entries.flatMap PropertyForm.bytes ++ front ++ rest)) =
          .error (Fault.bufferTooSmall needed got) rest := by
  refine ⟨fun input properties rest => reader_eq_ok, fun length left => reader_of_shortage,
    ?unknown, ?crossing⟩
  case unknown =>
    intro length entries key tail rest measured unknown
    exact reader_of_unknown measured unknown rest
  case crossing =>
    intro length entries crossing front back rest measured begun unfinished whole
    exact reader_of_crossing measured begun unfinished whole rest

/-- A block of two bytes is read and the byte behind it is left. Ten bytes are announced where
    there are two, an identifier is 4, and a number of four bytes ends after its first two. -/
theorem reader_grammar_maximumQoS :
    let block : BlockForm :=
      ⟨.shortest 2 (by decide), [⟨.maximumQoS, .shortest 36 (by decide), by decide, .byte 1⟩],
        by decide⟩
    reader [2, 36, 1, 0xAA] = .ok block.properties [0xAA] ∧
      reader [10, 36, 1] = .error (Fault.bufferTooSmall 10 2) [36, 1] ∧
      reader [4, 36, 1, 4, 0] = .error (Fault.unknownProperty 4) [] ∧
      ∃ needed got, got < needed ∧
        reader [3, 17, 0, 0, 0, 10] = .error (Fault.bufferTooSmall needed got) [0, 10] := by
  intro block
  let crossing : PropertyForm :=
    ⟨.sessionExpiryInterval, .shortest 17 (by decide), by decide, .uint32 ⟨⟨0, 0⟩, ⟨0, 10⟩⟩⟩
  obtain ⟨accepts, short, unknown, crosses⟩ := reader_grammar
  refine ⟨(accepts _ _ _).2 ⟨block, rfl, rfl⟩, short (.shortest 10 (by decide)) [36, 1] (by decide),
    unknown (.shortest 4 (by decide)) block.entries (.shortest 4 (by decide)) [0] [] (by decide) ?_,
    crosses (.shortest 3 (by decide)) [] crossing [17, 0, 0] [0, 10] [0, 10] (by decide)
      (by decide) (by decide) (by decide)⟩
  intro id
  cases id <;> decide

end Properties

end MqttWire
