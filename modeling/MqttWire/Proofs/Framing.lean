import MqttWire.Proofs.WireForm

/-! # Frames at the front of a buffer

A buffer ends inside a frame, or begins with a whole frame or with a header that
is refused. In the first case, and only there, decoding fails for want of bytes
before any packet is named. In the others the answer is settled by the front of
the buffer, and bytes that arrive later are left alone.
-/

namespace MqttWire

/-- Failure for want of bytes, with no layer around it. -/
def Error.IsShort (error : Error) : Prop :=
  ∃ needed got, error = ⟨[], .bufferTooSmall needed got⟩

/-- Every byte announces another, so that no numeral ends among them. -/
def GoesOn (groups : Bytes) : Prop := ∀ group ∈ groups, 128 ≤ group.toNat

/-- The four bits for the packet type are not all clear. -/
def HasType (first : UInt8) : Prop := first.toNat / 16 ≠ 0

/-- A first byte with a type, a remaining length, and as many bytes as it says. -/
inductive IsFrame : Bytes → Prop where
  | mk {first : UInt8} {length : Numeral} {body : Bytes} (typed : HasType first)
      (measured : length.value = body.length) : IsFrame (first :: (length.bytes ++ body))

/-- The bytes of a header up to the one at which it is refused. -/
inductive IsRefusedHeader : Bytes → Prop where
  | untyped {first : UInt8} (untyped : ¬HasType first) : IsRefusedHeader [first]
  | endless {first : UInt8} {groups : Bytes} (typed : HasType first) (four : groups.length = 4)
      (goesOn : GoesOn groups) : IsRefusedHeader (first :: groups)

/-- Bytes that end inside a frame, with the number of bytes that are asked for at
    the place where they run out and the number that are left there. -/
inductive IsIncomplete : Bytes → Nat → Nat → Prop where
  | nothing : IsIncomplete [] 1 0
  | inHeader {first : UInt8} {groups : Bytes} (typed : HasType first) (few : groups.length < 4)
      (goesOn : GoesOn groups) : IsIncomplete (first :: groups) 1 0
  | inBody {first : UInt8} {length : Numeral} {body : Bytes} (typed : HasType first)
      (short : body.length < length.value) :
      IsIncomplete (first :: (length.bytes ++ body)) length.value body.length

/-- Bytes with a header that can be read. -/
def HasHeader (buffer : Bytes) : Prop :=
  ∃ header rest, FixedHeader.reader buffer = .ok header rest

/-! ## Remaining lengths -/

theorem goesOn_cons {group : UInt8} {groups : Bytes} :
    GoesOn (group :: groups) ↔ 128 ≤ group.toNat ∧ GoesOn groups :=
  List.forall_mem_cons

/-- Bytes begin with a numeral, or go on for as long as one may be. -/
theorem exists_numeral_or_goesOn (more : Nat) (bytes : Bytes) :
    (∃ front rest, (IsNumeral front ∧ front.length ≤ more) ∧ front ++ rest = bytes) ∨
      (∃ groups rest, (groups.length = more ∧ GoesOn groups) ∧ groups ++ rest = bytes) ∨
        (bytes.length < more ∧ GoesOn bytes) := by
  induction more generalizing bytes with
  | zero => exact .inr (.inl ⟨[], bytes, ⟨rfl, nofun⟩, rfl⟩)
  | succ more ih =>
      cases bytes with
      | nil => exact .inr (.inr ⟨Nat.succ_pos more, nofun⟩)
      | cons byte tail =>
          by_cases ends : byte.toNat < 128
          · exact .inl ⟨[byte], tail, ⟨.last ends, by simp⟩, rfl⟩
          · have goesOn : 128 ≤ byte.toNat := Nat.le_of_not_lt ends
            obtain ⟨front, rest, ⟨numeral, short⟩, rfl⟩ | ⟨groups, rest, ⟨length, others⟩, rfl⟩ |
              ⟨few, others⟩ := ih tail
            · exact .inl ⟨byte :: front, rest, ⟨.more goesOn numeral, Nat.succ_le_succ short⟩, rfl⟩
            · exact .inr (.inl ⟨byte :: groups, rest,
                ⟨congrArg Nat.succ length, goesOn_cons.2 ⟨goesOn, others⟩⟩, rfl⟩)
            · exact .inr (.inr ⟨Nat.succ_lt_succ few, goesOn_cons.2 ⟨goesOn, others⟩⟩)

/-- Behind bytes that go on, the reader stops where it stops without them. -/
theorem VarInt.read_of_goesOn {groups rest left : Bytes} {more : Nat} {error : Error}
    (goesOn : GoesOn groups) (stops : read Reader.byte more rest = .error error left) :
    read Reader.byte (more + groups.length) (groups ++ rest) = .error error left := by
  induction groups with
  | nil => exact stops
  | cons group groups ih =>
      obtain ⟨first, others⟩ := goesOn_cons.1 goesOn
      have later := ih others
      have notLast : ¬group < 128 := Nat.not_lt.2 first
      rw [List.length_cons, ← Nat.add_assoc, read]
      simp only [bind, EStateM.bind, Reader.byte, List.cons_append, if_neg notLast] at later ⊢
      rw [later]

theorem VarInt.reader_of_four {groups : Bytes} (goesOn : GoesOn groups) (four : groups.length = 4)
    (rest : Bytes) : reader (groups ++ rest) = .error ⟨[], .malformedVarInt⟩ rest := by
  have stops : read Reader.byte 0 rest = .error ⟨[], .malformedVarInt⟩ rest := rfl
  have longer := read_of_goesOn goesOn stops
  rw [four] at longer
  exact longer

theorem VarInt.reader_of_fewer {groups : Bytes} (goesOn : GoesOn groups) (few : groups.length < 4) :
    reader groups = .error ⟨[], .bufferTooSmall 1 0⟩ [] := by
  obtain ⟨more, enough⟩ := Nat.exists_eq_add_of_lt few
  have stops : read Reader.byte (more + 1) [] = .error ⟨[], .bufferTooSmall 1 0⟩ [] := rfl
  have longer := read_of_goesOn goesOn stops
  rw [List.append_nil, show more + 1 + groups.length = 4 by omega] at longer
  exact longer

/-! ## Headers -/

theorem PacketType.isSome_ofCode? : ∀ code < 16, code ≠ 0 → (ofCode? code).isSome := by
  decide

theorem HasType.exists_type {first : UInt8} (typed : HasType first) :
    ∃ type, PacketType.ofCode? (first.toNat / 16) = some type := by
  have small := first.toNat_lt
  exact Option.isSome_iff_exists.1 (PacketType.isSome_ofCode? _ (by omega) typed)

namespace FixedHeader

theorem reader_of_untyped {first : UInt8} (untyped : ¬HasType first) (rest : Bytes) :
    reader (first :: rest) = .error ⟨[], .invalidPacketType 0⟩ rest := by
  have zero : first.toNat / 16 = 0 := Decidable.not_not.1 untyped
  simp only [reader, read, bind, EStateM.bind, Reader.byte, zero]
  rfl

/-- Behind a type, the reader stops where that of the remaining length stops. -/
theorem reader_of_stopped {first : UInt8} (typed : HasType first) {bytes left : Bytes}
    {error : Error} (stops : VarInt.reader bytes = .error error left) :
    reader (first :: bytes) = .error error left := by
  obtain ⟨type, known⟩ := typed.exists_type
  rw [VarInt.reader] at stops
  simp only [reader, read, bind, EStateM.bind, Reader.byte, known, stops]

theorem reader_of_numeral {first : UInt8} (typed : HasType first) (length : Numeral) :
    ∃ header, header.remainingLength = length.value ∧
      ∀ rest, reader (first :: (length.bytes ++ rest)) = .ok header rest := by
  obtain ⟨type, known⟩ := typed.exists_type
  refine ⟨⟨type, flagsOfByte first, length.value⟩, rfl, fun rest => ?_⟩
  exact accepts_reader.read ⟨length, rfl, by rw [firstByte_of_ofCode? length.value known]⟩ rest

end FixedHeader

/-! ## Answers -/

/-- How a packet whose header was read is refused: for the flags or the type in the
    header, or with the packet named. -/
inductive RefusesBody (header : FixedHeader) : Error → Prop where
  | flags {expected : HeaderFlags} :
      RefusesBody header ⟨[], .invalidFlags header.type header.flags expected⟩
  | unsupported : RefusesBody header ⟨[], .unsupportedPacketType header.type⟩
  | named {inner : Error} : RefusesBody header (inner.within (.packet header.type))

theorem FixedHeader.refusesBody_of_validateFlags {header : FixedHeader} {error : Error}
    (invalid : header.validateFlags = .error error) : RefusesBody header error := by
  unfold validateFlags at invalid
  split at invalid
  · cases invalid
  · split at invalid
    · cases invalid
    · cases invalid
      exact .flags

theorem Packet.refusesBody_of_ofBody {header : FixedHeader} {body : Bytes} {error : Error}
    (refused : ofBody header body = .error error) : RefusesBody header error := by
  unfold ofBody at refused
  cases valid : header.validateFlags with
  | error inner =>
      rw [valid] at refused
      cases refused
      exact FixedHeader.refusesBody_of_validateFlags valid
  | ok =>
      rw [valid] at refused
      cases known : reader? header with
      | none =>
          rw [known] at refused
          cases refused
          exact .unsupported
      | some reader =>
          rw [known] at refused
          change (reader.all body).mapError _ = _ at refused
          cases read : reader.all body with
          | error inner =>
              rw [read] at refused
              cases refused
              exact .named
          | ok =>
              rw [read] at refused
              cases refused

theorem Received.refusesBody_of_ofFrame {frame : Frame} {error : Error}
    (refused : ofFrame frame = .error error) : RefusesBody frame.header error := by
  unfold ofFrame at refused
  cases read : Packet.ofBody frame.header frame.body with
  | error inner =>
      rw [read] at refused
      cases refused
      exact Packet.refusesBody_of_ofBody read
  | ok packet =>
      rw [read] at refused
      cases refused

/-- The flags of a header, its packet type, or the layer of a named packet keep the
    faults of a whole frame apart from a want of bytes. -/
theorem RefusesBody.not_isShort {header : FixedHeader} {error : Error}
    (refuses : RefusesBody header error) : ¬error.IsShort := by
  rintro ⟨needed, got, short⟩
  cases refuses <;> cases short

/-- What the reader makes of bytes that begin with the front, when that alone
    decides. -/
structure Settles (front : Bytes) (answer : Except Error Received) : Prop where
  read : ∀ rest, Received.reader (front ++ rest) = Reader.lift answer rest
  not_isShort : ∀ error, answer = .error error → ¬error.IsShort

/-- What stops the reader of headers stops the reader of packets. -/
theorem Received.reader_of_header {buffer left : Bytes} {error : Error}
    (stops : FixedHeader.reader buffer = .error error left) :
    reader buffer = .error error left := by
  simp only [reader, Frame.reader, bind, EStateM.bind, stops]

theorem IsFrame.settles {front : Bytes} (isFrame : IsFrame front) :
    ∃ frame, Settles front (Received.ofFrame frame) := by
  obtain @⟨first, length, body, typed, measured⟩ := isFrame
  obtain ⟨header, announced, read⟩ := FixedHeader.reader_of_numeral typed length
  refine ⟨⟨header, body⟩, fun rest => ?_, fun error refused =>
    (Received.refusesBody_of_ofFrame refused).not_isShort⟩
  have taken : Reader.take header.remainingLength (body ++ rest) = .ok body rest :=
    Reader.take_eq_ok.2 ⟨measured.symm.trans announced.symm, rfl⟩
  have whole : Frame.reader (first :: (length.bytes ++ body) ++ rest) = .ok ⟨header, body⟩ rest := by
    rw [List.cons_append, List.append_assoc]
    exact Reader.bind_eq_ok.2 ⟨header, body ++ rest, read _,
      Reader.bind_eq_ok.2 ⟨body, rest, taken, rfl⟩⟩
  simp only [Received.reader, bind, EStateM.bind, whole]

theorem IsRefusedHeader.settles {front : Bytes} (isRefused : IsRefusedHeader front) :
    ∃ error, Settles front (.error error) := by
  cases isRefused with
  | @untyped first untyped =>
      refine ⟨⟨[], .invalidPacketType 0⟩, fun rest => ?_, ?_⟩
      · exact Received.reader_of_header (FixedHeader.reader_of_untyped untyped rest)
      · rintro _ ⟨⟩ ⟨_, _, ⟨⟩⟩
  | @endless first groups typed four goesOn =>
      refine ⟨⟨[], .malformedVarInt⟩, fun rest => ?_, ?_⟩
      · exact Received.reader_of_header
          (FixedHeader.reader_of_stopped typed (VarInt.reader_of_four goesOn four rest))
      · rintro _ ⟨⟩ ⟨_, _, ⟨⟩⟩

/-- Where a buffer ends inside a frame, the reader asks for more bytes. -/
theorem IsIncomplete.reader {buffer : Bytes} {needed got : Nat}
    (incomplete : IsIncomplete buffer needed got) :
    ∃ left, Received.reader buffer = .error ⟨[], .bufferTooSmall needed got⟩ left := by
  cases incomplete with
  | nothing => exact ⟨_, rfl⟩
  | inHeader typed few goesOn =>
      exact ⟨_, Received.reader_of_header
        (FixedHeader.reader_of_stopped typed (VarInt.reader_of_fewer goesOn few))⟩
  | @inBody first length body typed short =>
      obtain ⟨header, announced, read⟩ := FixedHeader.reader_of_numeral typed length
      have tooShort : Reader.take header.remainingLength body =
          .error ⟨[], .bufferTooSmall length.value body.length⟩ body := by
        rw [announced, Reader.take_of_short short]
      refine ⟨body, ?_⟩
      simp only [Received.reader, Frame.reader, bind, EStateM.bind, read, tooShort]

theorem IsIncomplete.got_lt {buffer : Bytes} {needed got : Nat}
    (incomplete : IsIncomplete buffer needed got) : got < needed := by
  cases incomplete with
  | nothing => exact Nat.one_pos
  | inHeader => exact Nat.one_pos
  | inBody _ short => exact short

/-- Every buffer ends inside a frame or begins with something that settles the answer. -/
theorem isIncomplete_or_settled (buffer : Bytes) :
    (∃ needed got, IsIncomplete buffer needed got) ∨
      ∃ front rest, (IsFrame front ∨ IsRefusedHeader front) ∧ front ++ rest = buffer := by
  cases buffer with
  | nil => exact .inl ⟨1, 0, .nothing⟩
  | cons first bytes =>
      by_cases typed : HasType first
      · obtain ⟨front, rest, ⟨grouped, short⟩, rfl⟩ | ⟨groups, rest, ⟨four, goesOn⟩, rfl⟩ |
          ⟨few, goesOn⟩ := exists_numeral_or_goesOn 4 bytes
        · let length : Numeral := ⟨front, grouped, short⟩
          by_cases enough : length.value ≤ rest.length
          · have measured : length.value = (rest.take length.value).length := by
              rw [List.length_take, Nat.min_eq_left enough]
            refine .inr ⟨_, rest.drop length.value, .inl (@IsFrame.mk first length _ typed measured), ?_⟩
            simp [length]
          · exact .inl ⟨_, _, @IsIncomplete.inBody first length rest typed (Nat.lt_of_not_le enough)⟩
        · exact .inr ⟨first :: groups, rest, .inr (.endless typed four goesOn), rfl⟩
        · exact .inl ⟨1, 0, .inHeader typed few goesOn⟩
      · exact .inr ⟨[first], bytes, .inr (.untyped typed), rfl⟩

/-! ## Decoding -/

namespace Packet

theorem decode_of_settles {front : Bytes} {answer : Except Error Received}
    (settles : Settles front answer) (rest : Bytes) :
    decode (front ++ rest) = answer.map fun received => (received.packet, rest) := by
  have read := settles.read rest
  unfold decode Received.ofBuffer
  rw [read]
  cases answer <;> rfl

/-- The packet or the error does not depend on the bytes behind the front. -/
theorem map_fst_decode_of_settles {front : Bytes} {answer : Except Error Received}
    (settles : Settles front answer) (rest : Bytes) :
    (decode (front ++ rest)).map Prod.fst = answer.map Received.packet := by
  rw [decode_of_settles settles]
  cases answer <;> rfl

theorem decode_of_isIncomplete {buffer : Bytes} {needed got : Nat}
    (incomplete : IsIncomplete buffer needed got) :
    decode buffer = .error ⟨[], .bufferTooSmall needed got⟩ := by
  obtain ⟨left, read⟩ := incomplete.reader
  unfold decode Received.ofBuffer
  rw [read]
  rfl

end Packet

end MqttWire
