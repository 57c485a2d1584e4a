import MqttWire.Proofs.PropertyGrammar
import MqttWire.Proofs.WireForm

/-! # The grammar of DISCONNECT, and the length in the header

The remaining length in the header alone decides which form of a DISCONNECT is asked for, and
the body may be of another length. A body that does not have the form that is asked for is
refused, so that what is read is what the header with the right length would have given. The
other packets do not look at the length.
-/

namespace MqttWire

namespace Disconnect

/-- The body, and the packet it stands for, behind a header with the given remaining length. -/
inductive IsBody : Nat → Bytes → Disconnect → Prop where
  | nothing : IsBody 0 [] ⟨0, .empty⟩
  | reason (code : ReasonCode) : IsBody 1 [code] ⟨code, .empty⟩
  | long {announced : Nat} (long : 2 ≤ announced) (code : ReasonCode) (block : BlockForm) :
      IsBody announced (code :: block.bytes) ⟨code, block.properties⟩

theorem isSpelling_long {code : ReasonCode} {properties : Properties} {body : Bytes} :
    IsSpelling [.field (.byte code), .block .properties properties] body ↔
      ∃ block : BlockForm, block.properties = properties ∧ code :: block.bytes = body := by
  simp only [isSpelling_field, isSpelling_block, isSpelling_nil, Block.spells_iff]
  constructor
  · intro spelled
    obtain ⟨_, _, ⟨⟩, ⟨_, _, ⟨block, rfl, rfl⟩, rfl, rfl⟩, rfl⟩ := spelled
    exact ⟨block, rfl, congrArg (code :: ·) (List.append_nil _).symm⟩
  · intro spelled
    obtain ⟨block, rfl, rfl⟩ := spelled
    exact ⟨[code], block.bytes, rfl,
      ⟨block.bytes, [], ⟨block, rfl, rfl⟩, rfl, List.append_nil _⟩, rfl⟩

/-- The body must have the form that the remaining length asks for. -/
theorem reader_eq_ok_iff_isBody {announced : Nat} {body : Bytes} {packet : Disconnect} :
    reader announced body = .ok packet [] ↔ IsBody announced body packet := by
  match announced with
  | 0 =>
      constructor
      · rintro ⟨⟩
        exact .nothing
      · intro isBody
        cases isBody with
        | nothing => rfl
        | long long => exact absurd long (by decide)
  | 1 =>
      constructor
      · intro read
        match body with
        | [] => cases read
        | code :: rest =>
            cases read
            exact .reason code
      · intro isBody
        cases isBody with
        | reason code => rfl
        | long long => exact absurd long (by decide)
  | announced + 2 =>
      have long : 2 ≤ announced + 2 := Nat.le_add_left 2 announced
      rw [usesUp_reader_of_long long, exists_eq_left, isSpelling_long]
      constructor
      · intro spelled
        obtain ⟨block, sameProperties, rfl⟩ := spelled
        obtain ⟨code, _⟩ := packet
        cases sameProperties
        exact .long long code block
      · rintro ⟨⟩
        exact ⟨_, rfl, rfl⟩

theorem two_le_length (code : ReasonCode) (block : BlockForm) :
    2 ≤ (code :: block.bytes).length :=
  two_le_length_of_long (isSpelling_long.2 ⟨block, rfl, rfl⟩)

namespace IsBody

variable {announced : Nat} {body : Bytes} {packet : Disconnect}

/-- Lengths from two on ask for the same form. -/
theorem min_eq (isBody : IsBody announced body packet) : min announced 2 = min body.length 2 := by
  cases isBody with
  | nothing => rfl
  | reason => rfl
  | long long code block => rw [Nat.min_eq_right long, Nat.min_eq_right (two_le_length code block)]

theorem with_length (isBody : IsBody announced body packet) : IsBody body.length body packet := by
  cases isBody with
  | nothing => exact .nothing
  | reason code => exact .reason code
  | long _ code block => exact .long (two_le_length code block) code block

end IsBody

end Disconnect

namespace Packet

theorem ofBareBody_disconnect_eq_ok {flags : HeaderFlags} {announced : Nat} {body : Bytes}
    {packet : Packet} :
    ofBareBody ⟨.disconnect, flags, announced⟩ body = .ok packet ↔
      ∃ found, .disconnect found = packet ∧ Disconnect.IsBody announced body found := by
  have all_iff : (Packet.disconnect <$> Disconnect.reader announced).all body = .ok packet ↔ _ :=
    Reader.all_eq_ok
  refine all_iff.trans ?_
  simp only [Reader.map_eq_ok, Disconnect.reader_eq_ok_iff_isBody]

/-- Only the reader of a DISCONNECT looks at the remaining length. -/
theorem reader?_with_length {header : FixedHeader} (other : header.type ≠ .disconnect)
    (remainingLength : Nat) :
    reader? { header with remainingLength } = reader? header := by
  obtain ⟨type, flags, announced⟩ := header
  cases type with
  | disconnect => exact absurd rfl other
  | _ => rfl

theorem ofBareBody_with_length {header : FixedHeader} {body : Bytes} {packet : Packet}
    (read : ofBareBody header body = .ok packet) :
    ofBareBody { header with remainingLength := body.length } body = .ok packet := by
  by_cases isDisconnect : header.type = .disconnect
  · obtain ⟨_, flags, announced⟩ := header
    cases isDisconnect
    obtain ⟨found, rfl, isBody⟩ := ofBareBody_disconnect_eq_ok.1 read
    exact ofBareBody_disconnect_eq_ok.2 ⟨found, rfl, isBody.with_length⟩
  · rw [ofBareBody, reader?_with_length isDisconnect]
    exact read

theorem ofBody_eq_ok_iff_bare {header : FixedHeader} {body : Bytes} {packet : Packet} :
    ofBody header body = .ok packet ↔
      header.validateFlags = .ok () ∧ ofBareBody header body = .ok packet := by
  rw [ofBody_eq_ok_iff_read, ofBareBody]
  cases reader? header with
  | none => simp
  | some reader => simp only [Option.some.injEq, exists_eq_left', Reader.all_eq_ok]

/-- A body is read as a DISCONNECT just when it has the form that the remaining length asks for.
    The length is then right up to two, and the right one gives the same packet. No packet that
    is read depends on a wrong length. -/
theorem body_settles_length :
    (∀ (flags : HeaderFlags) (announced : Nat) (body : Bytes) (packet : Packet),
      (ofBareBody ⟨.disconnect, flags, announced⟩ body = .ok packet ↔
        (announced = 0 ∧ body = [] ∧ packet = .disconnect ⟨0, .empty⟩) ∨
        (announced = 1 ∧ ∃ code, body = [code] ∧ packet = .disconnect ⟨code, .empty⟩) ∨
        (2 ≤ announced ∧ ∃ code, ∃ block : BlockForm, body = code :: block.bytes ∧
          packet = .disconnect ⟨code, block.properties⟩)) ∧
      (ofBareBody ⟨.disconnect, flags, announced⟩ body = .ok packet →
        min announced 2 = min body.length 2 ∧
          ofBareBody ⟨.disconnect, flags, body.length⟩ body = .ok packet)) ∧
    ∀ (header : FixedHeader) (body : Bytes) (packet : Packet),
      ofBody header body = .ok packet →
        ofBody { header with remainingLength := body.length } body = .ok packet := by
  refine ⟨fun flags announced body packet => ⟨?forms, ?length⟩, ?anyPacket⟩
  case forms =>
    rw [ofBareBody_disconnect_eq_ok]
    constructor
    · intro read
      obtain ⟨_, rfl, isBody⟩ := read
      cases isBody with
      | nothing => exact .inl ⟨rfl, rfl, rfl⟩
      | reason code => exact .inr (.inl ⟨rfl, code, rfl, rfl⟩)
      | long long code block => exact .inr (.inr ⟨long, code, block, rfl, rfl⟩)
    · rintro (⟨rfl, rfl, rfl⟩ | ⟨rfl, code, rfl, rfl⟩ | ⟨long, code, block, rfl, rfl⟩)
      · exact ⟨_, rfl, .nothing⟩
      · exact ⟨_, rfl, .reason code⟩
      · exact ⟨_, rfl, .long long code block⟩
  case length =>
    intro read
    obtain ⟨_, -, isBody⟩ := ofBareBody_disconnect_eq_ok.1 read
    exact ⟨isBody.min_eq, ofBareBody_with_length read⟩
  case anyPacket =>
    intro header body packet read
    obtain ⟨valid, bare⟩ := ofBody_eq_ok_iff_bare.1 read
    exact ofBody_eq_ok_iff_bare.2 ⟨valid, ofBareBody_with_length bare⟩

/-- A reason code and an empty block are read behind a header that announces five bytes. -/
theorem body_settles_length_five :
    let packet : Packet := .disconnect ⟨0x8B, .empty⟩
    ofBareBody ⟨.disconnect, .clear, 5⟩ [0x8B, 0] = .ok packet ∧ min 5 2 = min 2 2 ∧
      ofBareBody ⟨.disconnect, .clear, 2⟩ [0x8B, 0] = .ok packet ∧
      ofBody ⟨.disconnect, .clear, 5⟩ [0x8B, 0] = .ok packet ∧
      ofBody ⟨.disconnect, .clear, 2⟩ [0x8B, 0] = .ok packet := by
  intro packet
  have read : ofBareBody ⟨.disconnect, .clear, 5⟩ [0x8B, 0] = .ok packet := by decide +kernel
  have read' : ofBody ⟨.disconnect, .clear, 5⟩ [0x8B, 0] = .ok packet := by decide +kernel
  obtain ⟨right, same⟩ := (body_settles_length.1 .clear 5 [0x8B, 0] packet).2 read
  exact ⟨read, right, same, read', body_settles_length.2 _ _ packet read'⟩

end Packet

end MqttWire
