import MqttWire.Proofs.Canonical

/-! # Encoding and decoding

What encoding puts out is decoded to the same packet, whatever follows. What is
decoded can be encoded again, with no more bytes, and comes back unchanged just
when it was canonical. Writers append exactly as many bytes as the sizes say.
-/

namespace MqttWire.Packet

/-! ## From packets to bytes and back -/

theorem decode_append_of_encode {packet : Packet} {bytes : Bytes}
    (encoded : packet.encode = .ok bytes) (rest : Bytes) :
    decode (bytes ++ rest) = .ok (packet, rest) := by
  obtain ⟨form, samePacket, sameBytes, -⟩ := encode_eq_ok.1 encoded
  apply decode_eq_ok.2
  exact ⟨form, samePacket, by rw [sameBytes]⟩

/-- A CONNECT with a will, its properties out of order when they were added. -/
theorem decode_append_of_encode_connect :
    let packet : Packet := .connect {
      cleanStart := true
      keepAlive := 60
      properties := .ofList [.user "k" "v", ⟨.receiveMaximum, .uint16 9, rfl, rfl⟩]
      clientId := "id"
      will := some ⟨.atLeastOnce, true, .ofList [.user "w" ""], "t", [1, 2]⟩
      username := none
      password := some [3] }
    let bytes : Bytes := [16, 42, 0, 4, 77, 81, 84, 84, 5, 110, 0, 60, 10, 33, 0, 9, 38, 0, 1, 107,
      0, 1, 118, 0, 2, 105, 100, 6, 38, 0, 1, 119, 0, 0, 0, 1, 116, 0, 2, 1, 2, 0, 1, 3]
    packet.encode = .ok bytes ∧ decode (bytes ++ [224, 0]) = .ok (packet, [224, 0]) := by
  intro packet bytes
  have encoded : packet.encode = .ok bytes := by decide +kernel
  exact ⟨encoded, decode_append_of_encode encoded [224, 0]⟩

/-! ## From bytes to packets and back -/

theorem exists_encode_of_decode {buffer rest : Bytes} {packet : Packet}
    (decoded : decode buffer = .ok (packet, rest)) :
    ∃ taken bytes, taken ++ rest = buffer ∧ packet.encode = .ok bytes ∧
      bytes.length ≤ taken.length ∧ decode bytes = .ok (packet, []) := by
  obtain ⟨form, rfl, whole⟩ := decode_eq_ok.1 decoded
  obtain ⟨bytes, encoded, notLonger⟩ := form.exists_encode
  obtain ⟨canonical, samePacket, sameBytes, -⟩ := encode_eq_ok.1 encoded
  have again : decode bytes = .ok (form.packet, []) :=
    decode_eq_ok.2 ⟨canonical, samePacket, by rw [sameBytes, List.append_nil]⟩
  exact ⟨form.bytes, bytes, whole, encoded, notLonger, again⟩

/-- The length of the block takes a byte too many, and its identifiers descend. -/
theorem exists_encode_of_decode_connack :
    let packet : Packet := .connack ⟨true, 135,
      .ofList [⟨.receiveMaximum, .uint16 9, rfl, rfl⟩, ⟨.reasonString, .text "no", rfl, rfl⟩]⟩
    let buffer : Bytes := [32, 12, 1, 135, 136, 0, 33, 0, 9, 31, 0, 2, 110, 111, 5]
    decode buffer = .ok (packet, [5]) ∧
      ∃ taken bytes, taken ++ [5] = buffer ∧ packet.encode = .ok bytes ∧
        bytes.length ≤ taken.length ∧ decode bytes = .ok (packet, []) := by
  intro packet buffer
  have decoded : decode buffer = .ok (packet, [5]) := by decide +kernel
  exact ⟨decoded, exists_encode_of_decode decoded⟩

/-- Encoding gives back the bytes that were taken just when every numeral in
    them was shortest, the identifiers of every block did not descend, and the
    body, if that of a DISCONNECT, was brief. -/
theorem encode_eq_taken_iff {buffer rest : Bytes} {packet : Packet}
    (decoded : decode buffer = .ok (packet, rest)) :
    ∃ form : WireForm, form.packet = packet ∧ form.bytes ++ rest = buffer ∧
      (∀ (other : WireForm) (left : Bytes), other.bytes ++ left = buffer → other = form) ∧
      (packet.encode = .ok form.bytes ↔
        (∀ numeral ∈ form.numerals, numeral.IsShortest) ∧
        (∀ block ∈ form.blocks, block.identifiers.Pairwise (· ≤ ·)) ∧
        ∀ disconnect, packet = .disconnect disconnect → Disconnect.IsBrief form.body) := by
  obtain ⟨form, rfl, rfl⟩ := decode_eq_ok.1 decoded
  refine ⟨form, rfl, rfl, fun other left same => (WireForm.eq_of_append_eq same).1, ?_⟩
  rw [← WireForm.isCanonical_iff]
  constructor
  · intro encoded
    obtain ⟨written, -, sameBytes, canonical⟩ := encode_eq_ok.1 encoded
    have same : written.bytes ++ [] = form.bytes ++ [] := by rw [sameBytes]
    rw [← (WireForm.eq_of_append_eq same).1]
    exact canonical
  · intro canonical
    exact encode_eq_ok.2 ⟨form, rfl, rfl, canonical⟩

theorem encode_eq_taken_iff_connack :
    let packet : Packet := .connack ⟨true, 135,
      .ofList [⟨.receiveMaximum, .uint16 9, rfl, rfl⟩, ⟨.reasonString, .text "no", rfl, rfl⟩]⟩
    let buffer : Bytes := [32, 11, 1, 135, 8, 33, 0, 9, 31, 0, 2, 110, 111, 5]
    decode buffer = .ok (packet, [5]) ∧
      ∃ form : WireForm, form.packet = packet ∧ form.bytes ++ [5] = buffer ∧
        (∀ (other : WireForm) (left : Bytes), other.bytes ++ left = buffer → other = form) ∧
        (packet.encode = .ok form.bytes ↔
          (∀ numeral ∈ form.numerals, numeral.IsShortest) ∧
          (∀ block ∈ form.blocks, block.identifiers.Pairwise (· ≤ ·)) ∧
          ∀ disconnect, packet = .disconnect disconnect → Disconnect.IsBrief form.body) := by
  intro packet buffer
  have decoded : decode buffer = .ok (packet, [5]) := by decide +kernel
  exact ⟨decoded, encode_eq_taken_iff decoded⟩

/-! ## Appending to a buffer -/

/-- A packet and the bytes it is encoded to have the same fixed header. -/
theorem read_header_of_encode {packet : Packet} {bytes : Bytes}
    (encoded : packet.encode = .ok bytes) :
    ∃ body, body.length = packet.remainingLength ∧
      FixedHeader.reader bytes = .ok packet.header body ∧
      bytes.length = 1 + VarInt.size packet.remainingLength + body.length := by
  obtain ⟨-, length, body, isShortest, value, written, rfl⟩ := encode_eq_ok_iff_written.1 encoded
  have measured := packet.measures_segments written
  refine ⟨body, measured, ?_, ?_⟩
  · exact FixedHeader.accepts_reader.read
      ⟨length, value.trans packet.remainingLength_header.symm, rfl⟩ body
  · rw [List.length_cons, List.length_append, isShortest.length_eq, value]
    omega

/-- Both writers append what encoding gives, whatever is in the buffer. The
    number that they return is that of the bytes they append, and the header
    that can be read from these announces the rest of them. -/
theorem append_in_step {packet : Packet} {buffer after : Bytes} {count : Nat}
    (appended : packet.write buffer = .ok count after ∨
      packet.bareWrite buffer = .ok count after) :
    ∃ bytes, packet.encode = .ok bytes ∧ after = buffer ++ bytes ∧ count = bytes.length ∧
      count = 1 + VarInt.size packet.remainingLength + packet.remainingLength ∧
      ∃ header body, FixedHeader.reader bytes = .ok header body ∧ header.type = packet.type ∧
        header.remainingLength = packet.remainingLength ∧
        body.length = packet.remainingLength := by
  obtain ⟨bytes, encoded, rfl, rfl⟩ := appended.elim write_eq_ok.1 bareWrite_eq_ok.1
  obtain ⟨body, measured, readHeader, size⟩ := read_header_of_encode encoded
  exact ⟨bytes, encoded, rfl, rfl, measured ▸ size, packet.header, body, readHeader,
    packet.type_header, packet.remainingLength_header, measured⟩

/-- A PUBLISH behind a byte that is there already, by either writer. -/
theorem append_in_step_publish :
    let packet : Packet := .publish {
      dup := true
      qos := .atLeastOnce
      retain := false
      topic := ⟨["a", "", "b"], by simp, by simp [isReservedInTopic]⟩
      packetId := 10
      properties := .ofList [⟨.subscriptionIdentifier, .varInt 200, rfl, rfl⟩]
      payload := [1, 2, 3] }
    let after : Bytes := [7, 58, 15, 0, 4, 97, 47, 47, 98, 0, 10, 3, 11, 200, 1, 1, 2, 3]
    let inStep : Prop := ∃ bytes, packet.encode = .ok bytes ∧ after = [7] ++ bytes ∧
      17 = bytes.length ∧ 17 = 1 + VarInt.size packet.remainingLength + packet.remainingLength ∧
      ∃ header body, FixedHeader.reader bytes = .ok header body ∧ header.type = packet.type ∧
        header.remainingLength = packet.remainingLength ∧
        body.length = packet.remainingLength
    (packet.write [7] = .ok 17 after ∧ inStep) ∧ (packet.bareWrite [7] = .ok 17 after ∧ inStep) := by
  intro packet after inStep
  have named : packet.write [7] = .ok 17 after := rfl
  have bare : packet.bareWrite [7] = .ok 17 after := rfl
  exact ⟨⟨named, append_in_step (.inl named)⟩, ⟨bare, append_in_step (.inr bare)⟩⟩

end MqttWire.Packet
