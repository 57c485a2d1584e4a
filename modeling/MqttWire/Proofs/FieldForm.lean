import MqttWire.Proofs.Block

/-! # Fields byte by byte

The forms that the protocol gives to single fields: how many bytes there are, what each of
them says, and the value that they stand for. The forms speak of bytes only. That writers put
out just these bytes, and readers take just these, is proved of them.
-/

namespace MqttWire

/-! ## Numbers of fixed length -/

/-- Two bytes, the high one first. -/
structure Word where
  high : UInt8
  low : UInt8

namespace Word

def bytes (word : Word) : Bytes := [word.high, word.low]

/-- The number that the two bytes make up. -/
def toNat (word : Word) : Nat := word.high.toNat * 256 + word.low.toNat

def value (word : Word) : UInt16 := UInt16.ofNat word.toNat

theorem toNat_lt (word : Word) : word.toNat < 65536 := by
  have high := word.high.toNat_lt
  have low := word.low.toNat_lt
  simp only [toNat]
  omega

theorem toNat_value (word : Word) : word.value.toNat = word.toNat := by
  rw [value, UInt16.toNat_ofNat', Nat.mod_eq_of_lt word.toNat_lt]

theorem written_iff {value : UInt16} {bytes : Bytes} :
    (Draft.uint16 value).toExcept = .ok bytes ↔
      ∃ word : Word, word.value = value ∧ word.bytes = bytes := by
  constructor
  · rintro ⟨⟩
    exact ⟨⟨_, _⟩, Reader.uint16_eq_iff.2 ⟨rfl, rfl⟩, rfl⟩
  · intro spelled
    obtain ⟨word, same, rfl⟩ := spelled
    obtain ⟨high, low⟩ := Reader.uint16_eq_iff.1 same
    rw [Draft.uint16, high, low]
    rfl

end Word

/-- Four bytes, the highest first. -/
structure DoubleWord where
  high : Word
  low : Word

namespace DoubleWord

def bytes (double : DoubleWord) : Bytes := double.high.bytes ++ double.low.bytes

def value (double : DoubleWord) : UInt32 :=
  UInt32.ofNat (double.high.toNat * 65536 + double.low.toNat)

theorem value_eq_iff {double : DoubleWord} {value : UInt32} :
    double.value = value ↔
      UInt8.ofNat (value.toNat / 16777216) = double.high.high ∧
        UInt8.ofNat (value.toNat / 65536) = double.high.low ∧
        UInt8.ofNat (value.toNat / 256) = double.low.high ∧
        UInt8.ofNat value.toNat = double.low.low := by
  rw [← Reader.uint32_eq_iff, DoubleWord.value]
  have same : double.high.toNat * 65536 + double.low.toNat =
      ((double.high.high.toNat * 256 + double.high.low.toNat) * 256 +
        double.low.high.toNat) * 256 + double.low.low.toNat := by
    simp only [Word.toNat]
    omega
  rw [same]

theorem written_iff {value : UInt32} {bytes : Bytes} :
    (Draft.uint32 value).toExcept = .ok bytes ↔
      ∃ double : DoubleWord, double.value = value ∧ double.bytes = bytes := by
  constructor
  · rintro ⟨⟩
    exact ⟨⟨⟨_, _⟩, ⟨_, _⟩⟩, value_eq_iff.2 ⟨rfl, rfl, rfl, rfl⟩, rfl⟩
  · intro spelled
    obtain ⟨double, same, rfl⟩ := spelled
    obtain ⟨a, b, c, d⟩ := value_eq_iff.1 same
    rw [Draft.uint32, a, b, c, d]
    rfl

end DoubleWord

/-! ## Fields with a length -/

theorem Draft.measured_written_iff {measured : Measured} {content bytes : Bytes} :
    (Draft.measured measured content).toExcept = .ok bytes ↔
      ∃ length : Word, length.toNat = content.length ∧ length.bytes ++ content = bytes := by
  rw [Reader.toExcept_measured_eq_ok]
  constructor
  · intro written
    obtain ⟨fits, front, writtenLength, rfl⟩ := written
    obtain ⟨length, value, rfl⟩ := Word.written_iff.1 writtenLength
    have small : content.length < 65536 := Nat.lt_succ_of_le fits
    have same := congrArg UInt16.toNat value
    rw [length.toNat_value, UInt16.toNat_ofNat', Nat.mod_eq_of_lt small] at same
    exact ⟨length, same, rfl⟩
  · intro spelled
    obtain ⟨length, announced, rfl⟩ := spelled
    have small := length.toNat_lt
    refine ⟨?_, length.bytes, Word.written_iff.2 ⟨length, ?_, rfl⟩, rfl⟩
    · simp only [maxFieldLength]
      omega
    · rw [Word.value, announced]

/-- UTF-8 text behind its length. -/
structure TextForm where
  length : Word
  text : String
  measured : length.toNat = (Utf8.encode text).length

namespace TextForm

def bytes (form : TextForm) : Bytes := form.length.bytes ++ Utf8.encode form.text

theorem toNat_length (form : TextForm) : form.length.toNat = form.text.utf8ByteSize :=
  form.measured

theorem written_iff (text : String) (bytes : Bytes) :
    (Draft.text text).toExcept = .ok bytes ↔
      ∃ form : TextForm, form.text = text ∧ form.bytes = bytes := by
  rw [Draft.text, Draft.measured_written_iff]
  constructor
  · intro written
    obtain ⟨length, measured, same⟩ := written
    exact ⟨⟨length, text, measured⟩, rfl, same⟩
  · intro spelled
    obtain ⟨form, rfl, same⟩ := spelled
    exact ⟨form.length, form.measured, same⟩

end TextForm

/-- Bytes behind their length. -/
structure BinaryForm where
  length : Word
  content : Bytes
  measured : length.toNat = content.length

namespace BinaryForm

def bytes (form : BinaryForm) : Bytes := form.length.bytes ++ form.content

theorem written_iff (content bytes : Bytes) :
    (Draft.binary content).toExcept = .ok bytes ↔
      ∃ form : BinaryForm, form.content = content ∧ form.bytes = bytes := by
  rw [Draft.binary, Draft.measured_written_iff]
  constructor
  · intro written
    obtain ⟨length, measured, same⟩ := written
    exact ⟨⟨length, content, measured⟩, rfl, same⟩
  · intro spelled
    obtain ⟨form, rfl, same⟩ := spelled
    exact ⟨form.length, form.measured, same⟩

end BinaryForm

/-! ## Repeated fields -/

/-- Where each value has a form, a list of values has one form after the other. -/
theorem Draft.concat_written_iff {Form : Type} {value : Form → α} {formBytes : Form → Bytes}
    {draft : α → Draft}
    (written_iff : ∀ found bytes, (draft found).toExcept = .ok bytes ↔
      ∃ form, value form = found ∧ formBytes form = bytes) {values : List α} {bytes : Bytes} :
    (Draft.concat (values.map draft)).toExcept = .ok bytes ↔
      ∃ forms : List Form, forms.map value = values ∧ forms.flatMap formBytes = bytes := by
  induction values generalizing bytes with
  | nil =>
      constructor
      · rintro ⟨⟩
        exact ⟨[], rfl, rfl⟩
      · intro spelled
        obtain ⟨forms, none, rfl⟩ := spelled
        rw [List.map_eq_nil_iff.1 none]
        rfl
  | cons found values ih =>
      rw [List.map_cons, Draft.concat_cons, Draft.toExcept_append_eq_ok]
      constructor
      · intro written
        obtain ⟨_, _, first, others, rfl⟩ := written
        obtain ⟨form, rfl, rfl⟩ := (written_iff _ _).1 first
        obtain ⟨forms, rfl, rfl⟩ := ih.1 others
        exact ⟨form :: forms, rfl, rfl⟩
      · intro spelled
        obtain ⟨forms, same, rfl⟩ := spelled
        obtain ⟨form, others, rfl, rfl, rfl⟩ := List.map_eq_cons_iff.1 same
        exact ⟨formBytes form, others.flatMap formBytes, (written_iff _ _).2 ⟨form, rfl, rfl⟩,
          ih.2 ⟨others, rfl, rfl⟩, rfl⟩

/-! ## Values of a kind -/

/-- A value of a kind. -/
inductive DatumForm : DatumKind → Type where
  | byte (value : UInt8) : DatumForm .byte
  | uint16 (word : Word) : DatumForm .uint16
  | uint32 (double : DoubleWord) : DatumForm .uint32
  | varInt (numeral : Numeral) : DatumForm .varInt
  | text (form : TextForm) : DatumForm .text
  | pair (key value : TextForm) : DatumForm .pair
  | binary (form : BinaryForm) : DatumForm .binary

namespace DatumForm

variable {kind : DatumKind}

def bytes : DatumForm kind → Bytes
  | byte value => [value]
  | uint16 word => word.bytes
  | uint32 double => double.bytes
  | varInt numeral => numeral.bytes
  | text form => form.bytes
  | pair key value => key.bytes ++ value.bytes
  | binary form => form.bytes

/-- The value that the bytes stand for. -/
def datum : DatumForm kind → Datum
  | byte value => .byte value
  | uint16 word => .uint16 word.value
  | uint32 double => .uint32 double.value
  | varInt numeral => .varInt numeral.value
  | text form => .text form.text
  | pair key value => .pair ⟨key.text, value.text⟩
  | binary form => .binary form.content

theorem kind_datum (form : DatumForm kind) : form.datum.kind = kind := by
  cases form <;> rfl

theorem overflow_datum (form : DatumForm kind) : form.datum.overflow? = none := by
  cases form with
  | varInt numeral => exact if_pos numeral.value_le
  | _ => rfl

/-- The form as one that is written. -/
def payload : DatumForm kind → Payload
  | byte value => .plain (.byte value) [value] nofun rfl
  | uint16 word =>
      .plain (.uint16 word.value) word.bytes nofun (Word.written_iff.2 ⟨word, rfl, rfl⟩)
  | uint32 double =>
      .plain (.uint32 double.value) double.bytes nofun (DoubleWord.written_iff.2 ⟨double, rfl, rfl⟩)
  | varInt numeral => .number numeral
  | text form =>
      .plain (.text form.text) form.bytes nofun
        ((TextForm.written_iff _ _).2 ⟨form, rfl, rfl⟩)
  | pair key value =>
      .plain (.pair ⟨key.text, value.text⟩) (key.bytes ++ value.bytes) nofun
        (Draft.toExcept_append_eq_ok.2 ⟨key.bytes, value.bytes,
          (TextForm.written_iff _ _).2 ⟨key, rfl, rfl⟩,
          (TextForm.written_iff _ _).2 ⟨value, rfl, rfl⟩, rfl⟩)
  | binary form =>
      .plain (.binary form.content) form.bytes nofun
        ((BinaryForm.written_iff _ _).2 ⟨form, rfl, rfl⟩)

@[simp] theorem datum_payload (form : DatumForm kind) : form.payload.datum = form.datum := by
  cases form <;> rfl

@[simp] theorem bytes_payload (form : DatumForm kind) : form.payload.bytes = form.bytes := by
  cases form <;> rfl

end DatumForm

/-- What is written for a value of a kind has one of the forms of that kind. -/
theorem Payload.exists_form {payload : Payload} {kind : DatumKind}
    (sameKind : payload.datum.kind = kind) : ∃ form : DatumForm kind, form.payload = payload := by
  subst sameKind
  cases payload with
  | number numeral => exact ⟨.varInt numeral, rfl⟩
  | plain datum bytes notNumber written =>
      cases datum with
      | byte value =>
          cases written
          exact ⟨.byte value, rfl⟩
      | uint16 value =>
          obtain ⟨word, rfl, rfl⟩ := Word.written_iff.1 written
          exact ⟨.uint16 word, rfl⟩
      | uint32 value =>
          obtain ⟨double, rfl, rfl⟩ := DoubleWord.written_iff.1 written
          exact ⟨.uint32 double, rfl⟩
      | varInt => exact absurd rfl notNumber
      | text value =>
          obtain ⟨form, rfl, rfl⟩ := (TextForm.written_iff _ _).1 written
          exact ⟨.text form, rfl⟩
      | pair value =>
          obtain ⟨key, value⟩ := value
          obtain ⟨_, _, writtenKey, writtenValue, rfl⟩ := Draft.toExcept_append_eq_ok.1 written
          obtain ⟨keyForm, rfl, rfl⟩ := (TextForm.written_iff _ _).1 writtenKey
          obtain ⟨valueForm, rfl, rfl⟩ := (TextForm.written_iff _ _).1 writtenValue
          exact ⟨.pair keyForm valueForm, rfl⟩
      | binary content =>
          obtain ⟨form, rfl, rfl⟩ := (BinaryForm.written_iff _ _).1 written
          exact ⟨.binary form, rfl⟩

end MqttWire
