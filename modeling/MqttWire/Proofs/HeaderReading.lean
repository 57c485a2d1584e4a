import MqttWire.Proofs.Exhaustion
import MqttWire.Proofs.Refusal

/-! # Headers from a buffer and from a source

A header is read byte by byte, so a source hands out no more than the header has, in whatever
pieces. Reading one from a source comes to the same as reading one from a buffer, also where the
header is refused: for its type after one byte, for its remaining length after five. Only at the
end of the bytes do the errors differ.
-/

namespace MqttWire

namespace FixedHeader

/-! ## Writing -/

theorem exists_draft_iff {header : FixedHeader} :
    (∃ bytes, header.draft.toExcept = .ok bytes) ↔ header.remainingLength ≤ maxVarInt := by
  rw [Draft.toExcept_eq_ok_iff, draft, Draft.fault?_append, Draft.fault?_byte, Option.none_or,
    Draft.fault?_varInt]
  simp

theorem write_draft_iff {header : FixedHeader} {buffer : Bytes} :
    (∃ count after, header.draft.write buffer = .ok count after) ↔
      header.remainingLength ≤ maxVarInt := by
  rw [← exists_draft_iff]
  constructor
  · intro success
    obtain ⟨count, after, put⟩ := success
    obtain ⟨bytes, written, -, -⟩ := Draft.write_eq_ok.1 put
    exact ⟨bytes, written⟩
  · intro success
    obtain ⟨bytes, written⟩ := success
    exact ⟨_, _, Draft.write_of_ok written buffer⟩

theorem reader_of_draft {header : FixedHeader} {bytes : Bytes}
    (written : header.draft.toExcept = .ok bytes) (rest : Bytes) :
    reader (bytes ++ rest) = .ok header rest := by
  obtain ⟨_, _, ⟨⟩, writtenLength, rfl⟩ := Draft.toExcept_append_eq_ok.1 written
  obtain ⟨length, -, value, rfl⟩ := Numeral.toExcept_draft_eq_ok.1 writtenLength
  exact accepts_reader.read ⟨length, value, rfl⟩ rest

/-! ## Reading from a buffer -/

/-- A header is refused for its type, or for a remaining length that does not end. -/
inductive Refuses : Fault → Prop where
  | untyped : Refuses (.invalidPacketType 0)
  | endless : Refuses .malformedVarInt

theorem Refuses.not_isShort {fault : Fault} (refuses : Refuses fault) :
    ¬Error.IsShort ⟨[], fault⟩ := by
  rintro ⟨_, _, ⟨⟩⟩
  cases refuses

/-- What can come of reading a header from a buffer. -/
inductive Outcome (input : Bytes) : EStateM.Result Error Bytes FixedHeader → Prop where
  | read {header : FixedHeader} {front rest : Bytes} (whole : front ++ rest = input) :
      Outcome input (.ok header rest)
  | refused {fault : Fault} {front rest : Bytes} (refuses : Refuses fault)
      (whole : front ++ rest = input) : Outcome input (.error fault rest)
  | short : Outcome input (.error (Fault.bufferTooSmall 1 0) [])

theorem outcome_reader (input : Bytes) : Outcome input (reader input) := by
  cases input with
  | nil => exact .short
  | cons first bytes =>
      by_cases typed : HasType first
      · obtain ⟨length, rest, ⟨grouped, few⟩, rfl⟩ | ⟨four, rest, ⟨length, goesOn⟩, rfl⟩ |
          ⟨few, goesOn⟩ := exists_numeral_or_goesOn 4 bytes
        · obtain ⟨header, -, read⟩ := reader_of_numeral typed ⟨length, grouped, few⟩
          rw [read]
          exact @Outcome.read _ header (first :: length) rest rfl
        · rw [reader_of_stopped typed (VarInt.reader_of_four goesOn length rest)]
          exact @Outcome.refused _ _ (first :: four) rest .endless rfl
        · rw [reader_of_stopped typed (VarInt.reader_of_fewer goesOn few)]
          exact .short
      · rw [reader_of_untyped typed]
        exact @Outcome.refused _ _ [first] bytes .untyped rfl

/-! ## Reading from a source -/

section FromSource

variable {source : Source}

/-- What is read from a buffer is read from a source that hands out the same bytes. -/
theorem read_source_of_ok {header : FixedHeader} {front rest : Bytes}
    (whole : front ++ rest = source.reachable)
    (fromBuffer : reader source.reachable = .ok header rest) :
    read Source.byte source = .ok header (source.advance front.length) := by
  have agrees := Source.follows_header source
  rw [fromBuffer] at agrees
  exact agrees.eq_ok whole

theorem read_source_of_refused {fault : Fault} {front rest : Bytes} (refuses : Refuses fault) (whole : front ++ rest = source.reachable)
    (fromBuffer : reader source.reachable = .error fault rest) :
    read Source.byte source = .error fault (source.advance front.length) := by
  have agrees := Source.follows_header source
  rw [fromBuffer] at agrees
  exact agrees.eq_error refuses.not_isShort whole

/-- Where a buffer ends, the source has handed out all that it has and fails. -/
theorem read_source_of_short {needed got : Nat} {left : Bytes}
    (fromBuffer : reader source.reachable = .error (Fault.bufferTooSmall needed got) left) :
    ∃ fault after, read Source.byte source = .error (Fault.io fault) after ∧
      after.reachable = [] := by
  have agrees := Source.follows_header source
  have leaves := Source.exhausts_header source
  rw [fromBuffer] at agrees
  obtain ⟨fault, after, failed⟩ := agrees.exists_io
  rw [failed] at leaves
  refine ⟨fault, after, failed, ?_⟩
  cases leaves with
  | refused notIo => exact absurd ⟨_, rfl⟩ notIo
  | exhausted nothing => exact nothing

end FromSource

/-- A header can be written just when its remaining length is within the limit, takes as many
    bytes as announced, and is read from a buffer and from a source without a byte of what
    follows. Of any bytes, both readers make the same header or refuse it for the same fault,
    after equally many bytes, or both find too few of them. -/
theorem readers_agree :
    (∀ (header : FixedHeader) (buffer : Bytes),
      ((∃ count after, header.write buffer = .ok count after) ↔
        header.remainingLength ≤ maxVarInt) ∧
      ∀ count after, header.write buffer = .ok count after →
        count = header.encodedLength ∧ ∃ bytes, buffer ++ bytes = after ∧
          bytes.length = header.encodedLength ∧
          ∀ suffix, reader (bytes ++ suffix) = .ok header suffix ∧
            ∀ source : Source, source.reachable = bytes ++ suffix →
              read Source.byte source = .ok header (source.advance bytes.length) ∧
                (source.advance bytes.length).reachable = suffix) ∧
    ∀ (input : Bytes) (source : Source), source.reachable = input →
      (∃ header front rest, front ++ rest = input ∧ reader input = .ok header rest ∧
        read Source.byte source = .ok header (source.advance front.length)) ∨
      (∃ (fault : Fault) (front rest : Bytes),
        (fault = .invalidPacketType 0 ∨ fault = .malformedVarInt) ∧ front ++ rest = input ∧
        reader input = .error fault rest ∧
        read Source.byte source = .error fault (source.advance front.length)) ∨
      (reader input = .error (Fault.bufferTooSmall 1 0) [] ∧
        ∃ fault after, read Source.byte source = .error (Fault.io fault) after ∧
          after.reachable = []) := by
  simp only [write_eq]
  refine ⟨fun header buffer => ⟨write_draft_iff, ?written⟩, ?any⟩
  case written =>
    intro count after put
    obtain ⟨bytes, written, rfl, rfl⟩ := Draft.write_eq_ok.1 put
    have measured := header.measures_draft written
    refine ⟨measured, bytes, rfl, measured, fun suffix => ⟨reader_of_draft written suffix, ?_⟩⟩
    intro source available
    have fromBuffer := reader_of_draft written suffix
    rw [← available] at fromBuffer
    exact ⟨read_source_of_ok available.symm fromBuffer,
      Source.reachable_advance_of_append available.symm⟩
  case any =>
    intro input source available
    subst available
    have outcome := outcome_reader source.reachable
    generalize fromBuffer : reader source.reachable = result at outcome
    cases outcome with
    | @read header front rest whole =>
        exact .inl ⟨header, front, rest, whole, rfl, read_source_of_ok whole fromBuffer⟩
    | @refused fault front rest refuses whole =>
        have isOne : fault = .invalidPacketType 0 ∨ fault = .malformedVarInt := by
          cases refuses with
          | untyped => exact .inl rfl
          | endless => exact .inr rfl
        exact .inr (.inl ⟨fault, front, rest, isOne, whole, rfl,
          read_source_of_refused refuses whole fromBuffer⟩)
    | short => exact .inr (.inr ⟨rfl, read_source_of_short fromBuffer⟩)

/-- A header in front of a byte that is left, and one whose remaining length does not end, both
    handed out byte by byte. -/
theorem readers_agree_subscribe :
    let header : FixedHeader := ⟨.subscribe, 2, 321⟩
    let source : Source := { pending := [130, 193, 2, 255], limit? := fun _ => some 1 }
    let endless : Source := { pending := [16, 255, 255, 255, 255, 127], limit? := fun _ => some 1 }
    header.write [7] = .ok header.encodedLength [7, 130, 193, 2] ∧
      reader source.pending = .ok header [255] ∧
      read Source.byte source = .ok header (source.advance 3) ∧
      reader endless.pending = .error Fault.malformedVarInt [127] ∧
      read Source.byte endless = .error Fault.malformedVarInt (endless.advance 5) := by
  intro header source endless
  obtain ⟨writes, reads⟩ := readers_agree
  have put : write ⟨.subscribe, 2, 321⟩ [7] = .ok 3 [7, 130, 193, 2] := rfl
  obtain ⟨bytes, whole, -, back⟩ := ((writes header [7]).2 _ _ put).2
  cases List.append_cancel_left whole
  obtain ⟨fromBuffer, fromSource⟩ := back [255]
  have refused : reader endless.pending = .error Fault.malformedVarInt [127] := rfl
  refine ⟨put, fromBuffer, (fromSource source rfl).1, refused, ?_⟩
  obtain ⟨_, _, _, -, read, -⟩ | ⟨fault, front, rest, -, whole, refused', fromSource'⟩ |
    ⟨short, -⟩ := reads endless.pending endless rfl
  · cases refused.symm.trans read
  · cases refused.symm.trans refused'
    have same : front ++ [127] = [16, 255, 255, 255, 255] ++ [127] := whole
    cases List.append_cancel_right same
    exact fromSource'
  · cases refused.symm.trans short

end FixedHeader

end MqttWire
