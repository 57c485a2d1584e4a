import MqttWire.Proofs.Block
import MqttWire.Proofs.Refusal

/-! # Values in sequence

Values that are put onto one buffer, one after the other, can be read off it again by
whoever knows their kinds in order. Each takes up just the bytes of its size, whatever is in
front of it and behind it. A number, a text or binary data beyond its limit is refused before
anything is put out.
-/

namespace MqttWire

namespace Datum

/-- The value is within the limit of its representation. -/
def Fits : Datum → Prop
  | .varInt value => value ≤ maxVarInt
  | .text value => value.utf8ByteSize ≤ maxFieldLength
  | .pair value =>
      value.key.utf8ByteSize ≤ maxFieldLength ∧ value.value.utf8ByteSize ≤ maxFieldLength
  | .binary value => value.length ≤ maxFieldLength
  | _ => True

instance : DecidablePred Fits
  | .byte _ | .uint16 _ | .uint32 _ => .isTrue trivial
  | .varInt value => inferInstanceAs (Decidable (value ≤ maxVarInt))
  | .text value => inferInstanceAs (Decidable (value.utf8ByteSize ≤ maxFieldLength))
  | .pair value => inferInstanceAs (Decidable
      (value.key.utf8ByteSize ≤ maxFieldLength ∧ value.value.utf8ByteSize ≤ maxFieldLength))
  | .binary value => inferInstanceAs (Decidable (value.length ≤ maxFieldLength))

theorem fault?_draft_eq_none_iff {datum : Datum} : datum.draft.fault? = none ↔ datum.Fits := by
  cases datum with
  | byte | uint16 | uint32 => exact ⟨fun _ => trivial, fun _ => rfl⟩
  | varInt value => simp [draft, Fits]
  | text value =>
      rw [draft, Draft.fault?_text, LengthPrefixed.fault?_eq_none_iff]
      rfl
  | pair value =>
      rw [draft, TextPair.draft, Draft.fault?_append, Draft.fault?_text, Draft.fault?_text,
        Option.or_eq_none_iff, LengthPrefixed.fault?_eq_none_iff, LengthPrefixed.fault?_eq_none_iff]
      rfl
  | binary value =>
      rw [draft, Draft.fault?_binary, LengthPrefixed.fault?_eq_none_iff]
      rfl

/-- The bytes of a value: as many as its size says, put behind whatever a buffer holds, and
    read as the value whatever follows them. -/
structure WrittenAs (datum : Datum) (part : Bytes) : Prop where
  size : part.length = datum.size
  write (buffer : Bytes) : datum.draft.write buffer = .ok datum.size (buffer ++ part)
  read (rest : Bytes) : reader datum.kind (part ++ rest) = .ok datum rest

theorem Fits.exists_writtenAs {datum : Datum} (fits : datum.Fits) :
    ∃ part, datum.WrittenAs part := by
  obtain ⟨part, written⟩ := Draft.toExcept_eq_ok_iff.2 (fault?_draft_eq_none_iff.2 fits)
  have measured := datum.measures_draft written
  obtain ⟨payload, rfl, rfl, -⟩ := Payload.exists_of_draft written
  refine ⟨payload.bytes, measured, fun buffer => ?_, fun rest => ?_⟩
  · rw [← measured]
    exact Draft.write_of_ok written buffer
  · exact (Payload.accepts_reader _).read ⟨payload, rfl, rfl, rfl⟩ rest

/-! ## One value after the other -/

/-- Put values behind what a buffer holds, and count the bytes of each. -/
def writeAll (data : List Datum) : EStateM Error Bytes (List Nat) :=
  data.mapM fun datum => datum.draft.write

/-- Read values in the given representations. -/
def readAll (kinds : List DatumKind) : Reader (List Datum) :=
  kinds.mapM reader

section Sequence

variable {data : List Datum} {parts : List Bytes}

theorem writeAll_of_forall₂ (written : List.Forall₂ WrittenAs data parts) (buffer : Bytes) :
    writeAll data buffer = .ok (data.map size) (buffer ++ parts.flatten) := by
  induction written generalizing buffer with
  | nil => exact congrArg (EStateM.Result.ok []) (List.append_nil buffer).symm
  | @cons datum part data parts first others ih =>
      have later := ih (buffer ++ part)
      simp only [writeAll, List.mapM_cons, bind, EStateM.bind, first.write] at later ⊢
      rw [later, List.flatten_cons, ← List.append_assoc]
      rfl

theorem readAll_of_forall₂ (written : List.Forall₂ WrittenAs data parts) (rest : Bytes) :
    readAll (data.map kind) (parts.flatten ++ rest) = .ok data rest := by
  induction written with
  | nil => rfl
  | @cons datum part data parts first others ih =>
      rw [List.flatten_cons, List.append_assoc, readAll, List.map_cons, List.mapM_cons]
      exact Reader.bind_eq_ok.2 ⟨datum, _, first.read _, Reader.bind_eq_ok.2 ⟨data, rest, ih, rfl⟩⟩

theorem exists_forall₂_writtenAs (fits : ∀ datum ∈ data, datum.Fits) :
    ∃ parts, List.Forall₂ WrittenAs data parts := by
  induction data with
  | nil => exact ⟨[], .nil⟩
  | cons datum data ih =>
      obtain ⟨fitsFirst, fitsOthers⟩ := List.forall_mem_cons.1 fits
      obtain ⟨part, first⟩ := fitsFirst.exists_writtenAs
      obtain ⟨parts, others⟩ := ih fitsOthers
      exact ⟨part :: parts, .cons first others⟩

end Sequence

/-- Values that fit are put out one after the other, each in just as many bytes as its size
    says, whatever the buffer holds; reading their kinds gives the values back and leaves what
    follows. A number, a text or binary data beyond its limit leaves the buffer as it is. -/
theorem sequence_round_trip :
    (∀ data : List Datum, (∀ datum ∈ data, datum.Fits) → ∃ parts,
      List.Forall₂ WrittenAs data parts ∧
      (∀ buffer, writeAll data buffer = .ok (data.map size) (buffer ++ parts.flatten)) ∧
      ∀ suffix, readAll (data.map kind) (parts.flatten ++ suffix) = .ok data suffix) ∧
    (∀ value, maxVarInt < value → ∀ buffer,
      (varInt value).draft.write buffer = .error (Fault.varIntOverflow value) buffer) ∧
    (∀ value, maxFieldLength < value.utf8ByteSize → ∀ buffer,
      (text value).draft.write buffer = .error (Fault.tooLong .text value.utf8ByteSize) buffer) ∧
    ∀ value, maxFieldLength < value.length → ∀ buffer,
      (binary value).draft.write buffer = .error (Fault.tooLong .binary value.length) buffer := by
  refine ⟨fun data fits => ?_, fun value => VarInt.write_draft_of_lt,
    fun value => Draft.write_measured_of_lt, fun value => Draft.write_measured_of_lt⟩
  obtain ⟨parts, written⟩ := exists_forall₂_writtenAs fits
  exact ⟨parts, written, writeAll_of_forall₂ written, readAll_of_forall₂ written⟩

/-- One value of each kind behind a byte that is there and in front of one that follows. Then a
    number, a text and binary data, each of them one beyond its limit. -/
theorem sequence_round_trip_six :
    let data : List Datum :=
      [uint16 256, uint32 16777216, varInt 128, text "é", pair ⟨"k", ""⟩, binary [7]]
    let bytes : Bytes := [1, 0, 1, 0, 0, 0, 128, 1, 0, 2, 195, 169, 0, 1, 107, 0, 0, 0, 1, 7]
    let long := String.ofList (List.replicate 65536 'a')
    writeAll data [9] = .ok [2, 4, 2, 4, 5, 3] ([9] ++ bytes) ∧
      readAll (data.map kind) (bytes ++ [255]) = .ok data [255] ∧
      (varInt 268435456).draft.write [9] = .error (Fault.varIntOverflow 268435456) [9] ∧
      (text long).draft.write [9] = .error (Fault.tooLong .text 65536) [9] ∧
      (binary (List.replicate 65536 0)).draft.write [9] =
        .error (Fault.tooLong .binary 65536) [9] := by
  intro data bytes long
  have fits : ∀ datum ∈ data, datum.Fits := by decide +kernel
  have counted : long.utf8ByteSize = 65536 := by
    have one : (String.utf8EncodeChar 'a').length = 1 := rfl
    rw [← String.size_toByteArray, String.toByteArray_ofList, List.utf8Encode,
      List.size_toByteArray, List.length_flatMap, List.map_replicate, one, List.sum_replicate_nat]
  obtain ⟨sequences, numbers, texts, contents⟩ := sequence_round_trip
  obtain ⟨parts, -, writes, reads⟩ := sequences data fits
  have written : writeAll data [9] = .ok [2, 4, 2, 4, 5, 3] ([9] ++ bytes) := rfl
  have same : parts.flatten = bytes := by
    obtain ⟨-, sameBuffer⟩ := EStateM.Result.ok.inj ((writes [9]).symm.trans written)
    exact List.append_cancel_left sameBuffer
  have tooLong := texts long (by rw [counted]; decide) [9]
  have tooMuch := contents (List.replicate 65536 0) (by rw [List.length_replicate]; decide) [9]
  rw [counted] at tooLong
  rw [List.length_replicate] at tooMuch
  exact ⟨written, same ▸ reads [255], numbers _ (by decide) _, tooLong, tooMuch⟩

end Datum

end MqttWire
