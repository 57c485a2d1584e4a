import MqttWire.Proofs.Stream

/-! # The forms of a number

A number of up to four groups has a form for each number of bytes from the fewest
up to four. Readers accept just these, wherever the number stands; the writer puts
out the first.
-/

namespace MqttWire

namespace VarInt

/-- The groups of a number, exactly as many as given: high groups of zeros fill up. -/
def spread : Nat → Nat → Bytes
  | 0, _ => []
  | 1, value => [UInt8.ofNat value]
  | more + 2, value => UInt8.ofNat (value % 128 + 128) :: spread (more + 1) (value / 128)

/-- The written forms of a number, the shortest first. -/
def forms (value : Nat) : List Bytes :=
  if value ≤ maxVarInt then
    (List.range' (size value) (5 - size value)).map fun count => spread count value
  else []

theorem length_spread (count value : Nat) : (spread count value).length = count := by
  fun_induction spread count value with
  | case1 => rfl
  | case2 => rfl
  | case3 more value ih => rw [List.length_cons, ih]

theorem isNumeral_spread {more value : Nat} (small : value < capacity (more + 1)) :
    IsNumeral (spread (more + 1) value) := by
  induction more generalizing value with
  | zero =>
      have small : value < 128 := small
      exact .last (by simp; omega)
  | succ more ih =>
      have higher : value / 128 < capacity (more + 1) := Nat.div_lt_of_lt_mul small
      exact .more (by simp; omega) (ih higher)

theorem ofGroups_spread {count value : Nat} (small : value < capacity count) :
    ofGroups (spread count value) = value := by
  fun_induction spread count value with
  | case1 value =>
      rw [capacity, Nat.lt_one_iff] at small
      rw [small]
      rfl
  | case2 value =>
      have small : value < 128 := small
      simp only [ofGroups, UInt8.toNat_ofNat']
      omega
  | case3 more value ih =>
      have higher : value / 128 < capacity (more + 1) := Nat.div_lt_of_lt_mul small
      simp only [ofGroups, UInt8.toNat_ofNat', ih higher]
      omega

theorem lt_capacity_size {value : Nat} (small : value ≤ maxVarInt) :
    value < capacity (size value) := by
  simp only [maxVarInt] at small
  grind [size, capacity]

theorem size_pos (value : Nat) : 0 < size value := by
  grind [size]

theorem size_le_four (value : Nat) : size value ≤ 4 := by
  grind [size]

theorem length_forms (value : Nat) :
    (forms value).length = if value ≤ maxVarInt then 5 - size value else 0 := by
  unfold forms
  split
  · rw [List.length_map, List.length_range']
  · rfl

/-- No two forms have the same number of bytes. -/
theorem nodup_forms (value : Nat) : (forms value).Nodup := by
  unfold forms
  split
  · refine List.pairwise_map.2 (List.Pairwise.imp ?_ (List.pairwise_lt_range' 1))
    intro count count' fewer same
    have sameLength := congrArg List.length same
    rw [length_spread, length_spread] at sameLength
    omega
  · exact .nil

end VarInt

namespace Numeral

open VarInt (forms spread)

theorem spread_length_value (numeral : Numeral) :
    spread numeral.bytes.length numeral.value = numeral.bytes := by
  have below := numeral.grouped.ofGroups_lt
  obtain ⟨more, length⟩ := Nat.exists_eq_add_of_lt numeral.grouped.length_pos
  rw [Nat.zero_add] at length
  rw [length] at below ⊢
  refine (VarInt.isNumeral_spread below).eq_of_ofGroups_eq numeral.grouped ?_ ?_
  · rw [VarInt.length_spread, length]
  · exact VarInt.ofGroups_spread below

theorem spells_iff_mem_forms {value : Nat} {bytes : Bytes} :
    Spells value bytes ↔ bytes ∈ forms value := by
  constructor
  · intro spelled
    obtain ⟨numeral, rfl, rfl⟩ := spelled
    have fewest := numeral.size_le_length
    have most := numeral.length_le
    rw [forms, if_pos numeral.value_le]
    refine List.mem_map.2 ⟨numeral.bytes.length, ?_, numeral.spread_length_value⟩
    exact List.mem_range'_1.2 ⟨fewest, by omega⟩
  · intro member
    rw [forms] at member
    split at member
    case isTrue small =>
      obtain ⟨count, within, rfl⟩ := List.mem_map.1 member
      obtain ⟨enough, few⟩ := List.mem_range'_1.1 within
      have pos := VarInt.size_pos value
      obtain ⟨more, rfl⟩ : ∃ more, count = more + 1 := ⟨count - 1, by omega⟩
      have below : value < capacity (more + 1) :=
        Nat.lt_of_lt_of_le (VarInt.lt_capacity_size small) (capacity_mono enough)
      have short : (spread (more + 1) value).length ≤ 4 := by
        rw [VarInt.length_spread]
        omega
      exact ⟨⟨_, VarInt.isNumeral_spread below, short⟩, VarInt.ofGroups_spread below, rfl⟩
    case isFalse => cases member

/-- A condition on some numeral of a number is one on some form. -/
theorem exists_iff_forms {value : Nat} {holds : Bytes → Prop} :
    (∃ numeral : Numeral, numeral.value = value ∧ holds numeral.bytes) ↔
      ∃ bytes ∈ forms value, holds bytes := by
  simp only [← spells_iff_mem_forms, Spells]
  constructor
  · intro found
    obtain ⟨numeral, sameValue, isGood⟩ := found
    exact ⟨_, ⟨numeral, sameValue, rfl⟩, isGood⟩
  · intro found
    obtain ⟨_, ⟨numeral, sameValue, rfl⟩, isGood⟩ := found
    exact ⟨numeral, sameValue, isGood⟩

/-- The writer puts out the first form, and nothing for a number that has none. -/
theorem toExcept_draft_eq_ok_iff_head? {value : Nat} {bytes : Bytes} :
    (VarInt.draft value).toExcept = .ok bytes ↔ (forms value).head? = some bytes := by
  rw [VarInt.draft, forms]
  split
  case isTrue small =>
    have some : 5 - VarInt.size value ≠ 0 := by
      have := VarInt.size_le_four value
      omega
    have shortest : spread (VarInt.size value) value = VarInt.groups 4 value := by
      have whole := (Numeral.shortest value small).spread_length_value
      rw [value_shortest] at whole
      rw [← VarInt.length_groups small]
      exact whole
    rw [List.head?_map, List.head?_range', if_neg some, Option.map_some, shortest]
    constructor
    · rintro ⟨⟩
      rfl
    · rintro ⟨⟩
      rfl
  case isFalse =>
    constructor
    · intro written
      cases written
    · intro isForm
      cases isForm

theorem accepts_forms : VarInt.reader.Accepts fun value bytes => bytes ∈ forms value :=
  accepts_reader.congr fun _ _ => spells_iff_mem_forms

end Numeral

open VarInt (forms)

/-! ## Where numbers stand -/

theorem FixedHeader.accepts_forms :
    FixedHeader.reader.Accepts fun header bytes =>
      ∃ length ∈ forms header.remainingLength, header.firstByte :: length = bytes := by
  refine accepts_reader.congr fun header bytes => ?_
  simp only [← Numeral.exists_iff_forms]

theorem Source.header_eq_ok {source after : Source} {header : FixedHeader} :
    FixedHeader.read byte source = .ok header after ↔
      ∃ length ∈ forms header.remainingLength,
        header.firstByte :: length <+: source.reachable ∧
          after = source.advance (1 + length.length) := by
  constructor
  · intro read
    obtain ⟨_, ⟨length, isForm, rfl⟩, available, rfl⟩ :=
      (follows_header.eq_ok FixedHeader.accepts_forms).1 read
    exact ⟨length, isForm, available, by rw [List.length_cons, Nat.add_comm]⟩
  · intro found
    obtain ⟨length, isForm, available, rfl⟩ := found
    refine (follows_header.eq_ok FixedHeader.accepts_forms).2
      ⟨_, ⟨length, isForm, rfl⟩, available, ?_⟩
    rw [List.length_cons, Nat.add_comm]

theorem Payload.accepts_forms :
    (Datum.reader .varInt).Accepts fun datum bytes =>
      ∃ value, Datum.varInt value = datum ∧ bytes ∈ forms value :=
  Numeral.accepts_forms.map Datum.varInt

theorem Entry.accepts_forms :
    Property.reader.Accepts fun property bytes =>
      ∃ payload : Payload, payload.datum = property.value ∧
        ∃ key ∈ forms property.id.code, key ++ payload.bytes = bytes := by
  refine accepts_reader.congr fun property bytes => ?_
  simp only [← Numeral.exists_iff_forms]
  constructor
  · intro spelled
    obtain ⟨entry, rfl, rfl⟩ := spelled
    exact ⟨entry.payload, entry.payload_datum, entry.key, entry.key_value, rfl⟩
  · intro spelled
    obtain ⟨payload, payload_datum, key, key_value, rfl⟩ := spelled
    exact ⟨⟨property, key, payload, key_value, payload_datum⟩, rfl, rfl⟩

theorem Block.accepts_forms :
    Properties.reader.Accepts fun properties bytes =>
      ∃ entries : List Entry, Properties.ofList (entries.map Entry.property) = properties ∧
        ∃ length ∈ forms (entries.flatMap Entry.bytes).length,
          length ++ entries.flatMap Entry.bytes = bytes := by
  refine accepts_reader.congr fun properties bytes => ?_
  simp only [← Numeral.exists_iff_forms]
  constructor
  · intro spelled
    obtain ⟨block, rfl, rfl⟩ := spelled
    exact ⟨block.entries, rfl, block.length, block.measured, rfl⟩
  · intro spelled
    obtain ⟨entries, rfl, length, measured, rfl⟩ := spelled
    exact ⟨⟨length, entries, measured⟩, rfl, rfl⟩

theorem WireForm.accepts_forms :
    Received.reader.Accepts fun received bytes =>
      ∃ form : WireForm, form.packet = received.packet ∧ form.header = received.header ∧
        ∃ length ∈ forms form.body.length,
          form.header.firstByte :: (length ++ form.body) = bytes := by
  refine accepts_reader.congr fun received bytes => ?_
  simp only [← Numeral.exists_iff_forms]
  constructor
  · intro spelled
    obtain ⟨form, samePacket, sameHeader, rfl⟩ := spelled
    exact ⟨form, samePacket, sameHeader, form.length, form.measured, rfl⟩
  · intro spelled
    obtain ⟨form, samePacket, sameHeader, length, measured, rfl⟩ := spelled
    have sameValue : length.value = form.length.value := measured.trans form.measured.symm
    refine ⟨{ form with length, measured }, samePacket, ?_, ?_⟩
    · rw [← sameHeader, WireForm.header, WireForm.header, sameValue]
    · rw [WireForm.bytes, WireForm.header, WireForm.header, sameValue]

/-! ## Every form, and no other -/

/-- A number has as many forms as there are numbers of bytes from the fewest up to four, and
    the writer puts out the first. Each of them is accepted, and nothing else: of a number
    by itself, of the remaining length of a packet in a buffer or a source, of the length of a
    property block, of a property's identifier and of a property's value. -/
theorem VarInt.accepted_forms :
    (∀ value, (forms value).length = (if value ≤ maxVarInt then 5 - size value else 0) ∧
      (forms value).Nodup ∧
      ∀ bytes, (draft value).toExcept = .ok bytes ↔ (forms value).head? = some bytes) ∧
    VarInt.reader.Accepts (fun value bytes => bytes ∈ forms value) ∧
    FixedHeader.reader.Accepts (fun header bytes =>
      ∃ length ∈ forms header.remainingLength, header.firstByte :: length = bytes) ∧
    (∀ source after header, FixedHeader.read Source.byte source = .ok header after ↔
      ∃ length ∈ forms header.remainingLength,
        header.firstByte :: length <+: source.reachable ∧
          after = source.advance (1 + length.length)) ∧
    Received.reader.Accepts (fun received bytes =>
      ∃ form : WireForm, form.packet = received.packet ∧ form.header = received.header ∧
        ∃ length ∈ forms form.body.length,
          form.header.firstByte :: (length ++ form.body) = bytes) ∧
    Properties.reader.Accepts (fun properties bytes =>
      ∃ entries : List Entry, Properties.ofList (entries.map Entry.property) = properties ∧
        ∃ length ∈ forms (entries.flatMap Entry.bytes).length,
          length ++ entries.flatMap Entry.bytes = bytes) ∧
    Property.reader.Accepts (fun property bytes =>
      ∃ payload : Payload, payload.datum = property.value ∧
        ∃ key ∈ forms property.id.code, key ++ payload.bytes = bytes) ∧
    (Datum.reader .varInt).Accepts (fun datum bytes =>
      ∃ value, Datum.varInt value = datum ∧ bytes ∈ forms value) :=
  ⟨fun value => ⟨length_forms value, nodup_forms value,
      fun _ => Numeral.toExcept_draft_eq_ok_iff_head?⟩,
    Numeral.accepts_forms, FixedHeader.accepts_forms, fun _ _ _ => Source.header_eq_ok,
    WireForm.accepts_forms, Block.accepts_forms, Entry.accepts_forms, Payload.accepts_forms⟩

/-- Zero in two bytes, by itself and as a remaining length; the writer puts out one. -/
theorem VarInt.not_only_shortest :
    VarInt.reader [128, 0] = .ok 0 [] ∧
      Packet.decode [224, 128, 0] = .ok (.disconnect ⟨0, .empty⟩, []) ∧
      ¬∀ input value rest, VarInt.reader input = .ok value rest →
        ∃ bytes, (draft value).toExcept = .ok bytes ∧ bytes ++ rest = input := by
  have padded : VarInt.reader [128, 0] = .ok 0 [] := rfl
  refine ⟨padded, by decide +kernel, fun onlyShortest => ?_⟩
  obtain ⟨bytes, written, whole⟩ := onlyShortest _ _ _ padded
  cases written
  exact absurd whole (by decide)

end MqttWire
