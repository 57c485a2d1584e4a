import MqttWire.Proofs.Insertion
import MqttWire.Proofs.Size

/-! # Property blocks

A property block on the wire is the numeral of its length and then its entries:
each the numeral of an identifier and a value. The reader accepts every block,
whatever its numerals and the order of its entries; the writer puts out one in
which all numerals are shortest and identifiers ascend, and no block of the same
properties has fewer bytes.
-/

namespace MqttWire

/-! ## Values -/

/-- A data value on the wire. Only a variable byte integer has several forms. -/
inductive Payload where
  | number (numeral : Numeral)
  | plain (datum : Datum) (bytes : Bytes) (notNumber : datum.kind ≠ .varInt)
      (written : datum.draft.toExcept = .ok bytes)

namespace Payload

def datum : Payload → Datum
  | number numeral => .varInt numeral.value
  | plain datum .. => datum

def bytes : Payload → Bytes
  | number numeral => numeral.bytes
  | plain _ bytes .. => bytes

/-- The numerals in the value. -/
def numerals : Payload → List Numeral
  | number numeral => [numeral]
  | plain .. => []

/-- Bytes that stand for a value of the given kind. -/
def Spells (kind : DatumKind) (datum : Datum) (bytes : Bytes) : Prop :=
  ∃ payload : Payload, payload.datum = datum ∧ payload.bytes = bytes ∧ datum.kind = kind

/-- Values of a kind other than variable byte integers have one form each. -/
theorem accepts_plain {reader : Reader α} {draft : α → Draft} (inverts : reader.Inverts draft)
    {wrap : α → Datum} {kind : DatumKind} (notNumber : kind ≠ .varInt)
    (kind_wrap : ∀ value, (wrap value).kind = kind)
    (draft_wrap : ∀ value, (wrap value).draft = draft value)
    (wrapped : ∀ datum : Datum, datum.kind = kind → ∃ value, wrap value = datum) :
    Reader.Accepts (wrap <$> reader) (Spells kind) := by
  refine (inverts.map wrap).congr fun datum bytes => ?_
  constructor
  · intro read
    obtain ⟨value, rfl, written⟩ := read
    have differs : (wrap value).kind ≠ .varInt := kind_wrap value ▸ notNumber
    exact ⟨.plain (wrap value) bytes differs (draft_wrap value ▸ written), rfl, rfl,
      kind_wrap value⟩
  · intro spelled
    obtain ⟨payload, rfl, rfl, sameKind⟩ := spelled
    cases payload with
    | number => exact absurd sameKind.symm notNumber
    | plain datum bytes differs written =>
        obtain ⟨value, rfl⟩ := wrapped datum sameKind
        exact ⟨value, rfl, draft_wrap value ▸ written⟩

theorem accepts_reader (kind : DatumKind) : (Datum.reader kind).Accepts (Spells kind) := by
  cases kind with
  | byte =>
      refine accepts_plain Reader.inverts_byte nofun (fun _ => rfl) (fun _ => rfl) ?_
      rintro ⟨⟩ ⟨⟩
      exact ⟨_, rfl⟩
  | uint16 =>
      refine accepts_plain Reader.inverts_uint16 nofun (fun _ => rfl) (fun _ => rfl) ?_
      rintro ⟨⟩ ⟨⟩
      exact ⟨_, rfl⟩
  | uint32 =>
      refine accepts_plain Reader.inverts_uint32 nofun (fun _ => rfl) (fun _ => rfl) ?_
      rintro ⟨⟩ ⟨⟩
      exact ⟨_, rfl⟩
  | text =>
      refine accepts_plain Reader.inverts_text nofun (fun _ => rfl) (fun _ => rfl) ?_
      rintro ⟨⟩ ⟨⟩
      exact ⟨_, rfl⟩
  | pair =>
      refine accepts_plain Reader.inverts_pair nofun (fun _ => rfl) (fun _ => rfl) ?_
      rintro ⟨⟩ ⟨⟩
      exact ⟨_, rfl⟩
  | binary =>
      refine accepts_plain Reader.inverts_binary nofun (fun _ => rfl) (fun _ => rfl) ?_
      rintro ⟨⟩ ⟨⟩
      exact ⟨_, rfl⟩
  | varInt =>
      refine (Numeral.accepts_reader.map Datum.varInt).congr fun datum bytes => ?_
      constructor
      · intro read
        obtain ⟨_, rfl, numeral, rfl, rfl⟩ := read
        exact ⟨.number numeral, rfl, rfl, rfl⟩
      · intro spelled
        obtain ⟨payload, rfl, rfl, sameKind⟩ := spelled
        cases payload with
        | number numeral => exact ⟨numeral.value, rfl, numeral, rfl, rfl⟩
        | plain datum bytes differs written => exact absurd sameKind differs

theorem eq_of_append_eq {first second : Payload} {rest rest' : Bytes}
    (sameKind : first.datum.kind = second.datum.kind)
    (same : first.bytes ++ rest = second.bytes ++ rest') : first = second ∧ rest = rest' := by
  obtain ⟨sameDatum, sameBytes, sameRest⟩ := (accepts_reader second.datum.kind).unambiguous
    ⟨first, rfl, rfl, sameKind⟩ ⟨second, rfl, rfl, rfl⟩ same
  refine ⟨?_, sameRest⟩
  cases first with
  | number numeral =>
      cases second with
      | number numeral' => exact congrArg number (Numeral.ext sameBytes)
      | plain datum bytes differs => exact absurd sameKind.symm differs
  | plain datum bytes differs =>
      cases second with
      | number numeral => exact absurd sameKind differs
      | plain datum' bytes' differs' =>
          cases sameDatum
          cases sameBytes
          rfl

theorem toExcept_draft {payload : Payload}
    (shortest : ∀ numeral ∈ payload.numerals, numeral.IsShortest) :
    payload.datum.draft.toExcept = .ok payload.bytes := by
  cases payload with
  | number numeral =>
      exact Numeral.toExcept_draft_eq_ok.2 ⟨numeral, shortest numeral (.head _), rfl, rfl⟩
  | plain datum bytes differs written => exact written

theorem exists_of_draft {datum : Datum} {bytes : Bytes} (written : datum.draft.toExcept = .ok bytes) :
    ∃ payload : Payload, payload.datum = datum ∧ payload.bytes = bytes ∧
      ∀ numeral ∈ payload.numerals, numeral.IsShortest := by
  by_cases isNumber : datum.kind = .varInt
  · cases datum with
    | varInt value =>
        obtain ⟨numeral, isShortest, rfl, rfl⟩ := Numeral.toExcept_draft_eq_ok.1 written
        exact ⟨.number numeral, rfl, rfl, by simpa [numerals] using isShortest⟩
    | _ => cases isNumber
  · exact ⟨.plain datum bytes isNumber written, rfl, rfl, nofun⟩

/-- The same value with its numeral, if it has one, in shortest form. -/
def shorten : Payload → Payload
  | number numeral => number (.shortest numeral.value numeral.value_le)
  | plain datum bytes notNumber written => plain datum bytes notNumber written

@[simp] theorem datum_shorten (payload : Payload) : payload.shorten.datum = payload.datum := by
  cases payload with
  | number numeral => simp [shorten, datum]
  | plain => rfl

theorem shortest_shorten (payload : Payload) :
    ∀ numeral ∈ payload.shorten.numerals, numeral.IsShortest := by
  cases payload with
  | number numeral => simpa [shorten, numerals] using Numeral.isShortest_shortest _
  | plain => exact nofun

theorem length_shorten_le (payload : Payload) :
    payload.shorten.bytes.length ≤ payload.bytes.length := by
  cases payload with
  | number numeral => exact Numeral.isShortest_shortest _ numeral (by simp)
  | plain => exact Nat.le_refl _

end Payload

/-! ## Entries -/

/-- A property on the wire. -/
structure Entry where
  property : Property
  /-- The written identifier. -/
  key : Numeral
  payload : Payload
  key_value : key.value = property.id.code
  payload_datum : payload.datum = property.value

namespace Entry

def bytes (entry : Entry) : Bytes := entry.key.bytes ++ entry.payload.bytes

/-- The numerals in the entry. -/
def numerals (entry : Entry) : List Numeral := entry.key :: entry.payload.numerals

/-- Bytes that stand for a property. -/
def Spells (property : Property) (bytes : Bytes) : Prop :=
  ∃ entry : Entry, entry.property = property ∧ entry.bytes = bytes

theorem make_eq_ok {id : PropertyId} {value : Datum} {property : Property} :
    Property.make id value = .ok property ↔ property.id = id ∧ property.value = value := by
  unfold Property.make
  constructor
  · intro made
    split at made
    · split at made
      · cases made
        exact ⟨rfl, rfl⟩
      · cases made
    · cases made
  · intro spelled
    obtain ⟨rfl, rfl⟩ := spelled
    rw [dif_pos property.kind_value]
    split
    · rfl
    · rename_i number overflow
      rw [property.overflow_value] at overflow
      cases overflow

theorem accepts_reader : Property.reader.Accepts Spells := by
  intro input property rest
  simp only [Property.reader, Reader.bind_eq_ok]
  constructor
  · intro read
    obtain ⟨code, left, readCode, decoded⟩ := read
    obtain ⟨_, ⟨key, rfl, rfl⟩, rfl⟩ := Numeral.accepts_reader.1 readCode
    cases known : PropertyId.ofCode? key.value with
    | none => simp only [known, Reader.fail_eq_ok] at decoded
    | some id =>
        simp only [known, Reader.bind_eq_ok] at decoded
        obtain ⟨value, left', readValue, joined⟩ := decoded
        obtain ⟨_, ⟨payload, rfl, rfl, sameKind⟩, rfl⟩ := (Payload.accepts_reader _).1 readValue
        obtain ⟨made, rfl⟩ := Reader.lift_eq_ok.1 joined
        obtain ⟨rfl, sameValue⟩ := make_eq_ok.1 made
        have key_value := (PropertyId.code_of_ofCode? known).symm
        exact ⟨_, ⟨⟨property, key, payload, key_value, sameValue.symm⟩, rfl, rfl⟩,
          List.append_assoc ..⟩
  · intro spelled
    obtain ⟨_, ⟨entry, rfl, rfl⟩, rfl⟩ := spelled
    have sameKind : entry.property.value.kind = entry.property.id.kind := entry.property.kind_value
    refine ⟨entry.key.value, entry.payload.bytes ++ rest, ?_, ?_⟩
    · rw [bytes, List.append_assoc]
      exact entry.key.reader_bytes _
    · rw [entry.key_value, PropertyId.ofCode?_code]
      refine Reader.bind_eq_ok.2 ⟨entry.property.value, rest, ?_, ?_⟩
      · exact (Payload.accepts_reader _).read ⟨entry.payload, entry.payload_datum, rfl, sameKind⟩ rest
      · exact Reader.lift_eq_ok.2 ⟨make_eq_ok.2 ⟨rfl, rfl⟩, rfl⟩

theorem eq_of_append_eq {first second : Entry} {rest rest' : Bytes}
    (same : first.bytes ++ rest = second.bytes ++ rest') : first = second ∧ rest = rest' := by
  simp only [bytes, List.append_assoc] at same
  obtain ⟨sameKey, same⟩ := Numeral.eq_of_append_eq same
  have sameId : first.property.id = second.property.id := by
    apply PropertyId.code_injective
    rw [← first.key_value, ← second.key_value, sameKey]
  have sameKind : first.payload.datum.kind = second.payload.datum.kind := by
    rw [first.payload_datum, second.payload_datum, first.property.kind_value,
      second.property.kind_value, sameId]
  obtain ⟨samePayload, sameRest⟩ := Payload.eq_of_append_eq sameKind same
  have sameValue : first.property.value = second.property.value := by
    rw [← first.payload_datum, ← second.payload_datum, samePayload]
  refine ⟨?_, sameRest⟩
  obtain ⟨⟨id, value, kind_value, overflow_value⟩, key, payload, key_value, payload_datum⟩ := first
  obtain ⟨⟨id', value', kind_value', overflow_value'⟩, key', payload', key_value', payload_datum'⟩ :=
    second
  cases sameId
  cases sameValue
  cases sameKey
  cases samePayload
  rfl

theorem bytes_ne_nil (entry : Entry) : entry.bytes ≠ [] := by
  have pos := entry.key.grouped.length_pos
  refine List.append_ne_nil_of_left_ne_nil (List.ne_nil_of_length_pos pos) _

theorem eq_of_flatMap_eq {first second : List Entry}
    (same : first.flatMap bytes = second.flatMap bytes) : first = second := by
  induction first generalizing second with
  | nil =>
      cases second with
      | nil => rfl
      | cons entry others =>
          rw [List.flatMap_cons, List.flatMap_nil] at same
          exact absurd (List.append_eq_nil_iff.1 same.symm).1 entry.bytes_ne_nil
  | cons entry others ih =>
      cases second with
      | nil =>
          rw [List.flatMap_cons, List.flatMap_nil] at same
          exact absurd (List.append_eq_nil_iff.1 same).1 entry.bytes_ne_nil
      | cons entry' others' =>
          rw [List.flatMap_cons, List.flatMap_cons] at same
          obtain ⟨sameEntry, same⟩ := eq_of_append_eq same
          rw [sameEntry, ih same]

theorem toExcept_draft {entry : Entry}
    (shortest : ∀ numeral ∈ entry.numerals, numeral.IsShortest) :
    entry.property.draft.toExcept = .ok entry.bytes := by
  refine Draft.toExcept_append_eq_ok.2 ⟨entry.key.bytes, entry.payload.bytes, ?_, ?_, rfl⟩
  · exact Numeral.toExcept_draft_eq_ok.2
      ⟨entry.key, shortest entry.key (.head _), entry.key_value, rfl⟩
  · rw [← entry.payload_datum]
    exact Payload.toExcept_draft fun numeral member => shortest numeral (.tail _ member)

theorem exists_of_draft {property : Property} {bytes : Bytes}
    (written : property.draft.toExcept = .ok bytes) :
    ∃ entry : Entry, entry.property = property ∧ entry.bytes = bytes ∧
      ∀ numeral ∈ entry.numerals, numeral.IsShortest := by
  obtain ⟨front, back, writtenKey, writtenValue, rfl⟩ := Draft.toExcept_append_eq_ok.1 written
  obtain ⟨key, isShortest, key_value, rfl⟩ := Numeral.toExcept_draft_eq_ok.1 writtenKey
  obtain ⟨payload, payload_datum, rfl, shortest⟩ := Payload.exists_of_draft writtenValue
  exact ⟨⟨property, key, payload, key_value, payload_datum⟩, rfl, rfl,
    List.forall_mem_cons.2 ⟨isShortest, shortest⟩⟩

/-- The same property with all its numerals in shortest form. -/
def shorten (entry : Entry) : Entry where
  property := entry.property
  key := .shortest entry.key.value entry.key.value_le
  payload := entry.payload.shorten
  key_value := by rw [Numeral.value_shortest, entry.key_value]
  payload_datum := by rw [Payload.datum_shorten, entry.payload_datum]

theorem shortest_shorten (entry : Entry) :
    ∀ numeral ∈ entry.shorten.numerals, numeral.IsShortest :=
  List.forall_mem_cons.2
    ⟨Numeral.isShortest_shortest entry.key.value_le, entry.payload.shortest_shorten⟩

theorem length_shorten_le (entry : Entry) : entry.shorten.bytes.length ≤ entry.bytes.length := by
  have key := Numeral.isShortest_shortest entry.key.value_le entry.key (by simp)
  have payload := entry.payload.length_shorten_le
  simp only [bytes, List.length_append]
  exact Nat.add_le_add key payload

/-- A property that was read can be written, and not with more bytes. -/
theorem exists_draft (entry : Entry) :
    ∃ bytes, entry.property.draft.toExcept = .ok bytes ∧ bytes.length ≤ entry.bytes.length :=
  ⟨entry.shorten.bytes, toExcept_draft entry.shortest_shorten,
    entry.length_shorten_le⟩

end Entry

/-! ## Blocks -/

/-- A property block on the wire. -/
structure Block where
  length : Numeral
  entries : List Entry
  measured : length.value = (entries.flatMap Entry.bytes).length

namespace Block

def bytes (block : Block) : Bytes := block.length.bytes ++ block.entries.flatMap Entry.bytes

/-- The properties that the block carries. -/
def properties (block : Block) : Properties := .ofList (block.entries.map Entry.property)

/-- The numerals in the block: its length, the identifiers and the numbers. -/
def numerals (block : Block) : List Numeral := block.length :: block.entries.flatMap Entry.numerals

/-- The identifiers as they are written. -/
def identifiers (block : Block) : List Nat := block.entries.map fun entry => entry.key.value

/-- Bytes that stand for a property set. -/
def Spells (properties : Properties) (bytes : Bytes) : Prop :=
  ∃ block : Block, block.properties = properties ∧ block.bytes = bytes

theorem exists_entries {good : Entry → Prop} {list : List Property} {parts : List Bytes}
    (spelled : List.Forall₂ (fun property bytes => ∃ entry : Entry, entry.property = property ∧
      entry.bytes = bytes ∧ good entry) list parts) :
    ∃ entries : List Entry, entries.map Entry.property = list ∧
      entries.flatMap Entry.bytes = parts.flatten ∧ ∀ entry ∈ entries, good entry := by
  induction spelled with
  | nil => exact ⟨[], rfl, rfl, List.forall_mem_nil _⟩
  | cons first _ ih =>
      obtain ⟨entry, rfl, rfl, isGood⟩ := first
      obtain ⟨entries, rfl, same, others⟩ := ih
      exact ⟨entry :: entries, rfl, by simp [same], List.forall_mem_cons.2 ⟨isGood, others⟩⟩

theorem forall₂_entries {spells : Property → Bytes → Prop} {entries : List Entry}
    (each : ∀ entry ∈ entries, spells entry.property entry.bytes) :
    List.Forall₂ spells (entries.map Entry.property) (entries.map Entry.bytes) := by
  rw [List.forall₂_map_left_iff, List.forall₂_map_right_iff, List.forall₂_same]
  exact each

theorem accepts_reader : Properties.reader.Accepts Spells := by
  intro input properties rest
  simp only [Properties.reader, Reader.bind_eq_ok]
  constructor
  · intro read
    obtain ⟨size, left, readSize, content, left', taken, list, left'', lifted, done⟩ := read
    obtain ⟨_, ⟨length, rfl, rfl⟩, rfl⟩ := Numeral.accepts_reader.1 readSize
    obtain ⟨announced, rfl⟩ := Reader.take_eq_ok.1 taken
    obtain ⟨whole, rfl⟩ := Reader.lift_eq_ok.1 lifted
    obtain ⟨-, parts, spelled, rfl⟩ :=
      (Reader.untilEnd_eq_ok Entry.accepts_reader).1 (Reader.all_eq_ok.1 whole)
    obtain ⟨entries, rfl, sameBytes, -⟩ := @exists_entries (fun _ => True) _ _
      (spelled.imp fun _ _ found => by simpa only [Entry.Spells, and_true] using found)
    cases done
    refine ⟨_, ⟨⟨length, entries, ?_⟩, rfl, rfl⟩, ?_⟩
    · rw [sameBytes, announced]
    · change length.bytes ++ entries.flatMap Entry.bytes ++ rest = _
      rw [sameBytes, List.append_assoc]
  · intro spelled
    obtain ⟨_, ⟨block, rfl, rfl⟩, rfl⟩ := spelled
    have content : (block.entries.map Entry.bytes).flatten = block.entries.flatMap Entry.bytes := by
      rw [List.flatMap_def]
    refine ⟨block.length.value, block.entries.flatMap Entry.bytes ++ rest, ?_,
      block.entries.flatMap Entry.bytes, rest, Reader.take_eq_ok.2 ⟨block.measured.symm, rfl⟩,
      block.entries.map Entry.property, rest, Reader.lift_eq_ok.2 ⟨?_, rfl⟩, rfl⟩
    · rw [bytes, List.append_assoc]
      exact block.length.reader_bytes _
    · rw [Reader.all_eq_ok, Reader.untilEnd_eq_ok Entry.accepts_reader]
      exact ⟨rfl, block.entries.map Entry.bytes, forall₂_entries fun entry _ => ⟨entry, rfl, rfl⟩,
        content⟩

theorem eq_of_append_eq {first second : Block} {rest rest' : Bytes}
    (same : first.bytes ++ rest = second.bytes ++ rest') : first = second ∧ rest = rest' := by
  simp only [bytes, List.append_assoc] at same
  obtain ⟨sameLength, same⟩ := Numeral.eq_of_append_eq same
  have sameSize : (first.entries.flatMap Entry.bytes).length =
      (second.entries.flatMap Entry.bytes).length := by
    rw [← first.measured, ← second.measured, sameLength]
  obtain ⟨sameContent, sameRest⟩ := List.append_inj same sameSize
  have sameEntries := Entry.eq_of_flatMap_eq sameContent
  refine ⟨?_, sameRest⟩
  cases first
  cases second
  simp_all

/-! ## The written block -/

/-- Every numeral is shortest, and the identifiers do not descend. -/
structure IsCanonical (block : Block) : Prop where
  shortest : ∀ numeral ∈ block.numerals, numeral.IsShortest
  ascending : block.identifiers.Pairwise (· ≤ ·)

theorem ascending_iff {block : Block} :
    block.identifiers.Pairwise (· ≤ ·) ↔
      Properties.Ascending (block.entries.map Entry.property) := by
  simp only [identifiers, Properties.Ascending, List.pairwise_map, Entry.key_value]

theorem toExcept_concat_map {entries : List Entry}
    (shortest : ∀ entry ∈ entries, ∀ numeral ∈ entry.numerals, numeral.IsShortest) :
    (Draft.concat ((entries.map Entry.property).map Property.draft)).toExcept =
      .ok (entries.flatMap Entry.bytes) := by
  apply Reader.toExcept_concat_map_eq_ok.2
  refine ⟨entries.map Entry.bytes, forall₂_entries fun entry member => ?_, ?_⟩
  · exact Entry.toExcept_draft (shortest entry member)
  · rw [List.flatMap_def]

theorem exists_of_concat_map {list : List Property} {bytes : Bytes}
    (written : (Draft.concat (list.map Property.draft)).toExcept = .ok bytes) :
    ∃ entries : List Entry, entries.map Entry.property = list ∧
      entries.flatMap Entry.bytes = bytes ∧
      ∀ entry ∈ entries, ∀ numeral ∈ entry.numerals, numeral.IsShortest := by
  obtain ⟨parts, each, rfl⟩ := Reader.toExcept_concat_map_eq_ok.1 written
  exact exists_entries (each.imp fun _ _ writtenOne => Entry.exists_of_draft writtenOne)

/-- What the entries of a block come to when they are written. -/
theorem totalSize_of_shortest {entries : List Entry}
    (shortest : ∀ entry ∈ entries, ∀ numeral ∈ entry.numerals, numeral.IsShortest) :
    Properties.totalSize (entries.map Entry.property) = (entries.flatMap Entry.bytes).length := by
  induction entries with
  | nil => rfl
  | cons entry entries ih =>
      obtain ⟨first, others⟩ := List.forall_mem_cons.1 shortest
      rw [List.map_cons, Properties.totalSize_cons, List.flatMap_cons, List.length_append, ih others,
        entry.property.measures_draft (Entry.toExcept_draft first)]

theorem toExcept_draft {block : Block} (canonical : block.IsCanonical) :
    block.properties.draft.toExcept = .ok block.bytes := by
  obtain ⟨isShortest, shortest⟩ := List.forall_mem_cons.1 canonical.shortest
  have shortest : ∀ entry ∈ block.entries, ∀ numeral ∈ entry.numerals, numeral.IsShortest :=
    fun entry member numeral inEntry =>
      shortest numeral (List.mem_flatMap.2 ⟨entry, member, inEntry⟩)
  have kept : block.properties.toList = block.entries.map Entry.property :=
    Properties.toList_ofList_of_ascending (ascending_iff.1 canonical.ascending)
  have size : block.length.value = block.properties.size := by
    rw [block.measured, Properties.size_eq_totalSize, kept, totalSize_of_shortest shortest]
  refine Draft.toExcept_append_eq_ok.2
    ⟨block.length.bytes, block.entries.flatMap Entry.bytes, ?_, ?_, rfl⟩
  · exact Numeral.toExcept_draft_eq_ok.2 ⟨block.length, isShortest, size, rfl⟩
  · rw [kept]
    exact toExcept_concat_map shortest

theorem exists_of_draft {properties : Properties} {bytes : Bytes}
    (written : properties.draft.toExcept = .ok bytes) :
    ∃ block : Block, block.properties = properties ∧ block.bytes = bytes ∧ block.IsCanonical := by
  obtain ⟨front, back, writtenSize, writtenEntries, rfl⟩ := Draft.toExcept_append_eq_ok.1 written
  obtain ⟨length, isShortest, length_value, rfl⟩ := Numeral.toExcept_draft_eq_ok.1 writtenSize
  obtain ⟨entries, sameList, rfl, shortest⟩ := exists_of_concat_map writtenEntries
  have measured : length.value = (entries.flatMap Entry.bytes).length := by
    rw [length_value, Properties.size_eq_totalSize, ← sameList, totalSize_of_shortest shortest]
  refine ⟨⟨length, entries, measured⟩, ?_, rfl, ?_, ?_⟩
  · rw [Block.properties, sameList, Properties.ofList_toList]
  · refine List.forall_mem_cons.2 ⟨isShortest, fun numeral member => ?_⟩
    obtain ⟨entry, inBlock, inEntry⟩ := List.mem_flatMap.1 member
    exact shortest entry inBlock numeral inEntry
  · rw [ascending_iff, sameList]
    exact properties.ordered

theorem exists_concat_draft {list : List Property}
    (writable : ∀ property ∈ list, ∃ bytes, property.draft.toExcept = .ok bytes) :
    ∃ bytes, (Draft.concat (list.map Property.draft)).toExcept = .ok bytes := by
  induction list with
  | nil => exact ⟨[], rfl⟩
  | cons property list ih =>
      obtain ⟨⟨front, first⟩, others⟩ := List.forall_mem_cons.1 writable
      obtain ⟨back, written⟩ := ih others
      exact ⟨front ++ back, Draft.toExcept_append_eq_ok.2 ⟨front, back, first, written, rfl⟩⟩

theorem totalSize_le (entries : List Entry) :
    Properties.totalSize (entries.map Entry.property) ≤ (entries.flatMap Entry.bytes).length := by
  induction entries with
  | nil => exact Nat.le_refl _
  | cons entry entries ih =>
      obtain ⟨bytes, written, notLonger⟩ := entry.exists_draft
      have first := entry.property.measures_draft written
      simp only [List.map_cons, Properties.totalSize_cons, List.flatMap_cons, List.length_append]
      omega

theorem size_le (block : Block) : block.properties.size ≤ block.length.value := by
  have reordered : block.properties.toList.Perm (block.entries.map Entry.property) :=
    Properties.toList_ofList_perm _
  rw [Properties.size_eq_totalSize, Properties.totalSize_perm reordered, block.measured]
  exact totalSize_le block.entries

/-- Properties that were read can be written, and not with more bytes. -/
theorem exists_draft (block : Block) :
    ∃ bytes, block.properties.draft.toExcept = .ok bytes ∧ bytes.length ≤ block.bytes.length := by
  have small : block.properties.size ≤ maxVarInt :=
    Nat.le_trans block.size_le block.length.value_le
  have writable : ∀ property ∈ block.properties.toList,
      ∃ bytes, property.draft.toExcept = .ok bytes := by
    intro property member
    obtain ⟨entry, -, rfl⟩ :=
      List.mem_map.1 ((Properties.toList_ofList_perm _).mem_iff.1 member)
    obtain ⟨bytes, written, -⟩ := entry.exists_draft
    exact ⟨bytes, written⟩
  obtain ⟨content, written⟩ := exists_concat_draft writable
  have written : block.properties.draft.toExcept =
      .ok (VarInt.groups 4 block.properties.size ++ content) :=
    Draft.toExcept_append_eq_ok.2 ⟨_, content, Numeral.toExcept_draft_eq_ok.2
      ⟨.shortest _ small, Numeral.isShortest_shortest small, Numeral.value_shortest small, rfl⟩,
      written, rfl⟩
  refine ⟨_, written, ?_⟩
  rw [block.properties.measures_draft written, Properties.encodedLength, bytes, List.length_append,
    ← block.measured]
  exact Nat.add_le_add (Nat.le_trans (VarInt.size_mono block.size_le) block.length.size_le_length)
    block.size_le

end Block

end MqttWire
