import Mathlib.Data.List.Forall2
import MqttWire.Datum

/-! # Fields with one written form

A reader accepts a relation between values and bytes when its successes are
exactly these: the bytes in front of the input spell the value, and all that
follows them is left. For most fields that relation is the output of the writer,
so the field has no second written form.
-/

namespace MqttWire.Reader

/-- The successes of the reader are the bytes that spell a value, followed by
    anything. -/
def Accepts (reader : Reader α) (spells : α → Bytes → Prop) : Prop :=
  ∀ ⦃input value rest⦄, reader input = .ok value rest ↔
    ∃ bytes, spells value bytes ∧ bytes ++ rest = input

/-- The reader accepts exactly what the writer puts out. -/
def Inverts (reader : Reader α) (draft : α → Draft) : Prop :=
  reader.Accepts fun value bytes => (draft value).toExcept = .ok bytes

section Accepts

variable {reader : Reader α} {spells : α → Bytes → Prop}

theorem Accepts.read (accepts : reader.Accepts spells) {value : α} {bytes : Bytes}
    (spelled : spells value bytes) (rest : Bytes) : reader (bytes ++ rest) = .ok value rest :=
  accepts.2 ⟨bytes, spelled, rfl⟩

/-- What a reader accepts can be told apart from what follows. -/
theorem Accepts.unambiguous (accepts : reader.Accepts spells) {a b : α}
    {front front' rest rest' : Bytes} (first : spells a front) (second : spells b front')
    (same : front ++ rest = front' ++ rest') : a = b ∧ front = front' ∧ rest = rest' := by
  have read := accepts.read first rest
  rw [same, accepts.read second rest'] at read
  injection read with sameValue sameRest
  subst sameRest
  exact ⟨sameValue.symm, List.append_cancel_right same, rfl⟩

theorem Accepts.congr (accepts : reader.Accepts spells) {spells' : α → Bytes → Prop}
    (same : ∀ value bytes, spells value bytes ↔ spells' value bytes) :
    reader.Accepts spells' := by
  intro input value rest
  simp only [← same]
  exact @accepts input value rest

theorem Accepts.within (accepts : reader.Accepts spells) (layer : Layer) :
    (reader.within layer).Accepts spells := by
  intro input value rest
  rw [within_eq_ok]
  exact @accepts input value rest

theorem map_eq_ok {f : α → β} {input rest : Bytes} {value : β} :
    (f <$> reader) input = .ok value rest ↔
      ∃ found, f found = value ∧ reader input = .ok found rest := by
  rw [map_eq_pure_bind, Reader.bind_eq_ok]
  constructor
  · intro success
    obtain ⟨found, left, read, done⟩ := success
    cases done
    exact ⟨found, rfl, read⟩
  · intro success
    obtain ⟨found, rfl, read⟩ := success
    exact ⟨found, rest, read, rfl⟩

theorem Accepts.map (accepts : reader.Accepts spells) (f : α → β) :
    Accepts (f <$> reader) fun value bytes => ∃ found, f found = value ∧ spells found bytes := by
  intro input value rest
  rw [map_eq_ok]
  constructor
  · intro success
    obtain ⟨found, same, read⟩ := success
    obtain ⟨bytes, spelled, whole⟩ := accepts.1 read
    exact ⟨bytes, ⟨found, same, spelled⟩, whole⟩
  · intro spelled
    obtain ⟨bytes, ⟨found, same, spells⟩, whole⟩ := spelled
    exact ⟨found, same, accepts.2 ⟨bytes, spells, whole⟩⟩

theorem Accepts.bind_eq_ok (accepts : reader.Accepts spells) {next : α → Reader β}
    {input rest : Bytes} {value : β} :
    (reader >>= next) input = .ok value rest ↔
      ∃ found bytes left, spells found bytes ∧ next found left = .ok value rest ∧
        bytes ++ left = input := by
  rw [Reader.bind_eq_ok]
  constructor
  · intro read
    obtain ⟨found, left, readFirst, more⟩ := read
    obtain ⟨bytes, spelled, rfl⟩ := accepts.1 readFirst
    exact ⟨found, bytes, left, spelled, more, rfl⟩
  · intro parts
    obtain ⟨found, bytes, left, spelled, more, rfl⟩ := parts
    exact ⟨found, left, accepts.read spelled left, more⟩

end Accepts

theorem fail_eq_ok {fault : Fault} {input rest : Bytes} {value : α} :
    fail fault input = .ok value rest ↔ False :=
  ⟨nofun, nofun⟩

theorem pure_eq_ok {found value : α} {input rest : Bytes} :
    (pure found : Reader α) input = .ok value rest ↔ found = value ∧ rest = input := by
  simp [pure, EStateM.pure, eq_comm]

theorem lift_eq_ok {result : Except Error α} {input rest : Bytes} {value : α} :
    lift result input = .ok value rest ↔ result = .ok value ∧ rest = input := by
  cases result with
  | error => exact ⟨nofun, nofun⟩
  | ok found => simp [lift, pure_eq_ok]

theorem take_eq_ok {count : Nat} {input rest : Bytes} {value : Bytes} :
    take count input = .ok value rest ↔ value.length = count ∧ value ++ rest = input := by
  constructor
  · intro read
    simp only [take] at read
    split at read
    · cases read
    · cases read
      rename_i enough
      rw [List.length_take] at enough ⊢
      exact ⟨by omega, List.take_append_drop count input⟩
  · intro spelled
    obtain ⟨rfl, rfl⟩ := spelled
    simp [take]

theorem take_of_short {count : Nat} {input : Bytes} (short : input.length < count) :
    take count input = .error (Fault.bufferTooSmall count input.length) input := by
  rw [take, List.take_of_length_le (Nat.le_of_lt short), if_pos short]

theorem all_eq_ok {reader : Reader α} {input : Bytes} {value : α} :
    reader.all input = .ok value ↔ reader input = .ok value [] := by
  unfold all
  split <;> simp_all

/-! ## Numbers -/

theorem inverts_byte : Inverts byte .byte := by
  intro input value rest
  cases input <;> simp [byte, Draft.byte, eq_comm]

/-- A two byte integer is its two bytes. -/
theorem uint16_eq_iff {value : UInt16} {high low : UInt8} :
    UInt16.ofNat (high.toNat * 256 + low.toNat) = value ↔
      UInt8.ofNat (value.toNat / 256) = high ∧ UInt8.ofNat value.toNat = low := by
  have := value.toNat_lt
  have := high.toNat_lt
  have := low.toNat_lt
  simp only [← UInt16.toNat_inj, ← UInt8.toNat_inj, UInt16.toNat_ofNat', UInt8.toNat_ofNat']
  omega

theorem inverts_uint16 : Inverts uint16 .uint16 := by
  intro input value rest
  match input with
  | [] => simp [uint16, Draft.uint16]
  | [_] => simp [uint16, Draft.uint16]
  | high :: low :: tail =>
      simp only [uint16, EStateM.Result.ok.injEq, uint16_eq_iff, Draft.uint16,
        Draft.toExcept_raw, Except.ok.injEq, exists_eq_left', List.cons_append, List.nil_append,
        List.cons.injEq, and_assoc]
      exact and_congr_right fun _ => and_congr_right fun _ => eq_comm

/-- A four byte integer is its four bytes. -/
theorem uint32_eq_iff {value : UInt32} {a b c d : UInt8} :
    UInt32.ofNat (((a.toNat * 256 + b.toNat) * 256 + c.toNat) * 256 + d.toNat) = value ↔
      UInt8.ofNat (value.toNat / 16777216) = a ∧ UInt8.ofNat (value.toNat / 65536) = b ∧
        UInt8.ofNat (value.toNat / 256) = c ∧ UInt8.ofNat value.toNat = d := by
  have := value.toNat_lt
  have := a.toNat_lt
  have := b.toNat_lt
  have := c.toNat_lt
  have := d.toNat_lt
  simp only [← UInt32.toNat_inj, ← UInt8.toNat_inj, UInt32.toNat_ofNat', UInt8.toNat_ofNat']
  omega

theorem inverts_uint32 : Inverts uint32 .uint32 := by
  intro input value rest
  match input with
  | [] => simp [uint32, Draft.uint32]
  | [_] => simp [uint32, Draft.uint32]
  | [_, _] => simp [uint32, Draft.uint32]
  | [_, _, _] => simp [uint32, Draft.uint32]
  | a :: b :: c :: d :: tail =>
      simp only [uint32, EStateM.Result.ok.injEq, uint32_eq_iff, Draft.uint32,
        Draft.toExcept_raw, Except.ok.injEq, exists_eq_left', List.cons_append, List.nil_append,
        List.cons.injEq, and_assoc]
      exact and_congr_right fun _ => and_congr_right fun _ => and_congr_right fun _ =>
        and_congr_right fun _ => eq_comm

/-! ## Fields with a length -/

theorem toExcept_measured_eq_ok {measured : Measured} {content bytes : Bytes} :
    (Draft.measured measured content).toExcept = .ok bytes ↔
      content.length ≤ maxFieldLength ∧
        ∃ front, (Draft.uint16 (UInt16.ofNat content.length)).toExcept = .ok front ∧
          front ++ content = bytes := by
  unfold Draft.measured
  split
  · rename_i fits
    simp [Draft.toExcept_append_eq_ok, fits]
  · rename_i tooLong
    simp [tooLong]

theorem inverts_binary : Inverts binary .binary := by
  intro input content rest
  simp only [binary, bind_eq_ok, Draft.binary, toExcept_measured_eq_ok]
  constructor
  · intro read
    obtain ⟨length, left, readLength, readContent⟩ := read
    obtain ⟨front, written, rfl⟩ := inverts_uint16.1 readLength
    obtain ⟨announced, rfl⟩ := take_eq_ok.1 readContent
    have bound := length.toNat_lt
    refine ⟨front ++ content, ⟨by simp only [maxFieldLength]; omega, front, ?_, rfl⟩, by simp⟩
    rw [announced, UInt16.ofNat_toNat]
    exact written
  · intro spelled
    obtain ⟨_, ⟨fits, front, written, rfl⟩, rfl⟩ := spelled
    refine ⟨_, content ++ rest, inverts_uint16.2 ⟨front, written, by simp⟩, take_eq_ok.2 ⟨?_, rfl⟩⟩
    rw [UInt16.toNat_ofNat', Nat.mod_eq_of_lt (by simp only [maxFieldLength] at fits; omega)]

theorem decode?_eq_some_iff {bytes : Bytes} {content : String} :
    Utf8.decode? bytes = some content ↔ Utf8.encode content = bytes :=
  ⟨Utf8.encode_of_decode?, fun same => same ▸ Utf8.decode?_encode content⟩

theorem inverts_text : Inverts text .text := by
  intro input content rest
  simp only [text, bind_eq_ok]
  constructor
  · intro success
    obtain ⟨raw, left, read, decoded⟩ := success
    obtain ⟨bytes, written, rfl⟩ := inverts_binary.1 read
    cases known : Utf8.decode? raw with
    | none => simp only [known, fail_eq_ok] at decoded
    | some found =>
        simp only [known, pure_eq_ok] at decoded
        obtain ⟨rfl, rfl⟩ := decoded
        refine ⟨bytes, ?_, rfl⟩
        simp only [Draft.text, toExcept_measured_eq_ok, decode?_eq_some_iff.1 known]
        simpa only [Draft.binary, toExcept_measured_eq_ok] using written
  · intro spelled
    obtain ⟨bytes, written, rfl⟩ := spelled
    simp only [Draft.text, toExcept_measured_eq_ok] at written
    refine ⟨Utf8.encode content, rest, inverts_binary.2 ⟨bytes, ?_, rfl⟩, ?_⟩
    · simpa only [Draft.binary, toExcept_measured_eq_ok] using written
    · rw [Utf8.decode?_encode]
      rfl

theorem inverts_pair : Inverts TextPair.reader TextPair.draft := by
  intro input pair rest
  simp only [TextPair.reader, bind_eq_ok, TextPair.draft, Draft.toExcept_append_eq_ok]
  constructor
  · intro read
    obtain ⟨key, left, readKey, value, left', readValue, done⟩ := read
    obtain ⟨front, writtenKey, rfl⟩ := inverts_text.1 readKey
    obtain ⟨back, writtenValue, rfl⟩ := inverts_text.1 readValue
    cases done
    exact ⟨front ++ back, ⟨front, back, writtenKey, writtenValue, rfl⟩, by simp⟩
  · intro spelled
    obtain ⟨_, ⟨front, back, writtenKey, writtenValue, rfl⟩, rfl⟩ := spelled
    exact ⟨pair.key, back ++ rest, inverts_text.2 ⟨front, writtenKey, by simp⟩,
      pair.value, rest, inverts_text.read writtenValue rest, rfl⟩

/-! ## Repeated items -/

theorem toExcept_concat_map_eq_ok {draft : α → Draft} {values : List α} {bytes : Bytes} :
    (Draft.concat (values.map draft)).toExcept = .ok bytes ↔
      ∃ parts, List.Forall₂ (fun value part => (draft value).toExcept = .ok part) values parts ∧
        parts.flatten = bytes := by
  induction values generalizing bytes with
  | nil => simp [Draft.concat, eq_comm]
  | cons value values ih =>
      rw [List.map_cons, Draft.concat_cons, Draft.toExcept_append_eq_ok]
      constructor
      · intro written
        obtain ⟨front, back, first, others, rfl⟩ := written
        obtain ⟨parts, spelled, rfl⟩ := ih.1 others
        exact ⟨front :: parts, .cons first spelled, rfl⟩
      · intro spelled
        obtain ⟨_, _ | ⟨first, others⟩, rfl⟩ := spelled
        exact ⟨_, _, first, ih.2 ⟨_, others, rfl⟩, rfl⟩

section Repetition

variable {item : Reader α} {advances : item.Advances} {spells : α → Bytes → Prop}

theorem untilEndFrom_sound (accepts : item.Accepts spells) {found values : List α}
    {input rest : Bytes} (read : untilEndFrom item advances found input = .ok values rest) :
    rest = [] ∧ ∃ later parts, List.Forall₂ spells later parts ∧ parts.flatten = input ∧
      found.reverse ++ later = values := by
  fun_induction untilEndFrom item advances found input with
  | case1 found input isEmpty =>
      cases read
      exact ⟨rfl, [], [], .nil, (List.isEmpty_iff.1 isEmpty).symm, by simp⟩
  | case2 found input notEmpty value left step ih =>
      obtain ⟨part, spelled, rfl⟩ := accepts.1 step
      obtain ⟨rfl, later, parts, spelledLater, rfl, rfl⟩ := ih read
      exact ⟨rfl, value :: later, part :: parts, .cons spelled spelledLater, rfl, by simp⟩
  | case3 => cases read

theorem untilEndFrom_of_ok {value : α} {input rest : Bytes} (read : item input = .ok value rest)
    (found : List α) :
    untilEndFrom item advances found input = untilEndFrom item advances (value :: found) rest := by
  have some : ¬input.isEmpty := fun none => by
    have shorter := advances read
    rw [List.isEmpty_iff.1 none] at shorter
    exact Nat.not_lt_zero _ shorter
  rw [untilEndFrom, if_neg some]
  split
  case h_1 read' =>
    rw [read] at read'
    cases read'
    rfl
  case h_2 read' =>
    rw [read] at read'
    cases read'

theorem untilEndFrom_complete (accepts : item.Accepts spells) {later : List α}
    {parts : List Bytes} (spelled : List.Forall₂ spells later parts) (found : List α) :
    untilEndFrom item advances found parts.flatten = .ok (found.reverse ++ later) [] := by
  induction spelled generalizing found with
  | nil =>
      rw [untilEndFrom]
      simp
  | @cons value part later parts first _ ih =>
      rw [List.flatten_cons, untilEndFrom_of_ok (accepts.read first parts.flatten), ih]
      simp

/-- Repeated items are one written form after the other, up to the end. -/
theorem untilEnd_eq_ok (accepts : item.Accepts spells) {values : List α} {input rest : Bytes} :
    untilEnd item advances input = .ok values rest ↔
      rest = [] ∧ ∃ parts, List.Forall₂ spells values parts ∧ parts.flatten = input := by
  constructor
  · intro read
    obtain ⟨rfl, later, parts, spelled, rfl, rfl⟩ := untilEndFrom_sound accepts read
    exact ⟨rfl, parts, spelled, rfl⟩
  · intro spelling
    obtain ⟨rfl, parts, spelled, rfl⟩ := spelling
    exact untilEndFrom_complete accepts spelled []

end Repetition

end MqttWire.Reader
