import MqttWire.Proofs.WireForm

/-! # Canonical wire forms

A wire form is canonical when its numerals are shortest, the identifiers in its
blocks do not descend and its body is the one that the writer chooses. Encoding
puts out canonical forms and no others, every other form of the same packet is
at least as long, and no two forms share their bytes.
-/

namespace MqttWire

/-! ## Bodies of a DISCONNECT -/

namespace Disconnect

/-- The segments of the packet in a body of the given length. -/
def segmentsOfLength (packet : Disconnect) : Nat → List Segment
  | 0 => []
  | 1 => [.field (.byte packet.reasonCode)]
  | _ => [.field (.byte packet.reasonCode), .block .properties packet.properties]

theorem IsForm.eq_segmentsOfLength {packet : Disconnect} {segments : List Segment}
    (form : packet.IsForm segments) {body : Bytes} (spelled : IsSpelling segments body) :
    segments = packet.segmentsOfLength body.length := by
  cases form with
  | long =>
      obtain ⟨length, more⟩ := Nat.exists_eq_add_of_le' (two_le_length_of_long spelled)
      rw [more]
      rfl
  | reason reasonCode =>
      obtain ⟨_, _, ⟨⟩, others, rfl⟩ := isSpelling_field.1 spelled
      cases isSpelling_nil.1 others
      rfl
  | nothing =>
      cases isSpelling_nil.1 spelled
      rfl

/-- Bodies that say nothing that could be left out. -/
inductive IsBrief : Bytes → Prop where
  | nothing : IsBrief []
  | reason {reasonCode : ReasonCode} (notNormal : reasonCode ≠ 0) : IsBrief [reasonCode]
  | properties (reasonCode : ReasonCode) {block : Block} (someEntry : block.entries ≠ []) :
      IsBrief (reasonCode :: block.bytes)

theorem isBrief_singleton {reasonCode : ReasonCode} : IsBrief [reasonCode] ↔ reasonCode ≠ 0 := by
  constructor
  · intro brief
    generalize single : [reasonCode] = body at brief
    cases brief with
    | nothing => cases single
    | reason notNormal =>
        cases single
        exact notNormal
    | @properties _ block =>
        have pos := block.length.grouped.length_pos
        have empty := congrArg List.length (List.tail_eq_of_cons_eq single)
        simp only [Block.bytes, List.length_append, List.length_nil] at empty
        omega
  · exact .reason

theorem isBrief_cons_block {reasonCode : ReasonCode} {block : Block} :
    IsBrief (reasonCode :: block.bytes) ↔ block.entries ≠ [] := by
  constructor
  · intro brief
    generalize whole : reasonCode :: block.bytes = body at brief
    cases brief with
    | nothing => cases whole
    | reason =>
        have pos := block.length.grouped.length_pos
        have empty := congrArg List.length (List.tail_eq_of_cons_eq whole)
        simp only [Block.bytes, List.length_append, List.length_nil] at empty
        omega
    | @properties _ block' someEntry =>
        have sameBytes := List.tail_eq_of_cons_eq whole
        rw [← List.append_nil block.bytes, ← List.append_nil block'.bytes] at sameBytes
        rw [(Block.eq_of_append_eq sameBytes).1]
        exact someEntry
  · exact .properties reasonCode

end Disconnect

theorem Block.isEmpty_properties (block : Block) :
    block.properties.isEmpty = block.entries.isEmpty := by
  have sameLength := (Properties.toList_ofList_perm (block.entries.map Entry.property)).length_eq
  rw [List.length_map] at sameLength
  rw [Properties.isEmpty, Block.properties, Bool.eq_iff_iff, List.isEmpty_iff, List.isEmpty_iff,
    ← List.length_eq_zero_iff, ← List.length_eq_zero_iff, sameLength]

/-- The writer chooses the brief body. -/
theorem Disconnect.segments_eq_iff {packet : Disconnect} {segments : List Segment}
    (form : packet.IsForm segments) {body : Bytes} (spelled : IsSpelling segments body) :
    segments = packet.segments ↔ IsBrief body := by
  cases form with
  | long =>
      obtain ⟨_, _, ⟨⟩, others, rfl⟩ := isSpelling_field.1 spelled
      obtain ⟨_, _, ⟨block, sameProperties, rfl⟩, noMore, rfl⟩ := isSpelling_block.1 others
      cases isSpelling_nil.1 noMore
      rw [List.append_nil]
      change _ ↔ IsBrief (packet.reasonCode :: block.bytes)
      rw [isBrief_cons_block, ne_eq, ← List.isEmpty_iff, ← block.isEmpty_properties, sameProperties,
        Disconnect.segments]
      split
      · split <;> simp [*]
      · simp [*]
  | reason reasonCode =>
      obtain ⟨_, _, ⟨⟩, others, rfl⟩ := isSpelling_field.1 spelled
      cases isSpelling_nil.1 others
      change _ ↔ IsBrief [reasonCode]
      rw [isBrief_singleton]
      by_cases normal : reasonCode = 0
      · subst normal
        exact ⟨nofun, fun notNormal => absurd rfl notNormal⟩
      · simp [Disconnect.segments, normal, Properties.isEmpty, Properties.empty]
  | nothing =>
      cases isSpelling_nil.1 spelled
      exact ⟨fun _ => .nothing, fun _ => rfl⟩

/-- Whatever stands for the packet, the writer's body is not longer. -/
theorem Disconnect.exists_written {packet : Disconnect} {segments : List Segment}
    {blocks : List Block} {body : Bytes} (form : packet.IsForm segments)
    (spelled : Spelled segments blocks body) :
    ∃ shorter, (writtenSegments packet.segments).toExcept = .ok shorter ∧
      shorter.length ≤ body.length := by
  by_cases chosen : segments = packet.segments
  · rw [← chosen]
    exact spelled.exists_written
  · rw [← packet.body_eq]
    cases form with
    | long =>
        have long := two_le_length_of_long ⟨blocks, spelled⟩
        unfold segments at chosen
        unfold Disconnect.body
        split at chosen
        · rename_i isEmpty
          rw [if_pos isEmpty]
          split
          · exact ⟨[], rfl, Nat.zero_le _⟩
          · exact ⟨[packet.reasonCode], rfl, Nat.le_of_succ_le long⟩
        · exact absurd rfl chosen
    | reason reasonCode =>
        by_cases normal : reasonCode = 0
        · subst normal
          exact ⟨[], rfl, Nat.zero_le _⟩
        · simp [Disconnect.segments, normal, Properties.isEmpty, Properties.empty] at chosen
    | nothing => exact absurd rfl chosen

namespace Packet

theorem IsForm.eq_of_spelling {packet : Packet} {segments segments' : List Segment} {body : Bytes}
    (form : packet.IsForm segments) (form' : packet.IsForm segments')
    (spelling : IsSpelling segments body) (spelling' : IsSpelling segments' body) :
    segments = segments' := by
  cases packet with
  | disconnect packet =>
      exact (Disconnect.IsForm.eq_segmentsOfLength form spelling).trans
        (Disconnect.IsForm.eq_segmentsOfLength form' spelling').symm
  | _ => exact Eq.trans form (Eq.symm form')

theorem IsForm.exists_written {packet : Packet} {segments : List Segment} {blocks : List Block}
    {body : Bytes} (form : packet.IsForm segments) (spelled : Spelled segments blocks body) :
    ∃ shorter, (writtenSegments packet.segments).toExcept = .ok shorter ∧
      shorter.length ≤ body.length := by
  cases packet with
  | disconnect packet => exact Disconnect.exists_written form spelled
  | _ =>
      cases form
      exact spelled.exists_written

end Packet

/-! ## Forms and bytes -/

namespace WireForm

/-- The bytes of a form show where it ends and what it is made of. -/
theorem eq_of_append_eq {first second : WireForm} {rest rest' : Bytes}
    (same : first.bytes ++ rest = second.bytes ++ rest') : first = second ∧ rest = rest' := by
  have spelled : ∀ form : WireForm, Spells ⟨form.header, form.packet⟩ form.bytes :=
    fun form => ⟨form, rfl, rfl, rfl⟩
  obtain ⟨sameReceived, sameBytes, sameRest⟩ :=
    accepts_reader.unambiguous (spelled first) (spelled second) same
  refine ⟨?_, sameRest⟩
  obtain ⟨packet, length, segments, blocks, body, form, admissible, spelled, measured⟩ := first
  obtain ⟨packet', length', segments', blocks', body', form', admissible', spelled', measured'⟩ :=
    second
  have samePacket : packet = packet' := congrArg Received.packet sameReceived
  subst samePacket
  obtain ⟨sameLength, sameBody⟩ := Numeral.eq_of_append_eq (List.tail_eq_of_cons_eq sameBytes)
  cases sameLength
  cases sameBody
  cases form.eq_of_spelling form' ⟨blocks, spelled⟩ ⟨blocks', spelled'⟩
  obtain ⟨rfl, -⟩ := spelled.unambiguous spelled' (@rfl _ (body ++ []))
  rfl

/-! ## The written form -/

/-- Shortest numerals, identifiers that do not descend, and the writer's choice
    of a body. -/
structure IsCanonical (form : WireForm) : Prop where
  shortest : ∀ numeral ∈ form.numerals, numeral.IsShortest
  ascending : ∀ block ∈ form.blocks, block.identifiers.Pairwise (· ≤ ·)
  chosen : form.segments = form.packet.segments

theorem IsCanonical.blocks {form : WireForm} (canonical : form.IsCanonical) :
    ∀ block ∈ form.blocks, block.IsCanonical := by
  intro block member
  refine ⟨fun numeral inBlock => ?_, canonical.ascending block member⟩
  exact canonical.shortest numeral (.tail _ (List.mem_flatMap.2 ⟨block, member, inBlock⟩))

theorem isCanonical_iff {form : WireForm} :
    form.IsCanonical ↔ (∀ numeral ∈ form.numerals, numeral.IsShortest) ∧
      (∀ block ∈ form.blocks, block.identifiers.Pairwise (· ≤ ·)) ∧
      ∀ packet, form.packet = .disconnect packet → Disconnect.IsBrief form.body := by
  obtain ⟨packet, length, segments, blocks, body, form, admissible, spelled, measured⟩ := form
  have chosen : segments = packet.segments ↔
      ∀ disconnect, packet = .disconnect disconnect → Disconnect.IsBrief body := by
    cases packet with
    | disconnect packet =>
        rw [Packet.segments, Disconnect.segments_eq_iff form ⟨blocks, spelled⟩]
        exact ⟨fun brief _ _ => brief, fun brief => brief packet rfl⟩
    | _ => exact ⟨nofun, fun _ => form⟩
  constructor
  · intro canonical
    exact ⟨canonical.shortest, canonical.ascending, chosen.1 canonical.chosen⟩
  · intro conditions
    obtain ⟨shortest, ascending, brief⟩ := conditions
    exact ⟨shortest, ascending, chosen.2 brief⟩

end WireForm

/-- Encoding puts out the canonical form, and fails if there is none. -/
theorem Packet.encode_eq_ok {packet : Packet} {bytes : Bytes} :
    packet.encode = .ok bytes ↔
      ∃ form : WireForm, form.packet = packet ∧ form.bytes = bytes ∧ form.IsCanonical := by
  rw [encode_eq_ok_iff_written]
  constructor
  · intro encoded
    obtain ⟨admissible, length, body, isShortest, value, written, rfl⟩ := encoded
    obtain ⟨blocks, spelled, canonical⟩ := Spelled.exists_of_written written
    have measured : length.value = body.length := by
      rw [value, packet.measures_segments written]
    refine ⟨⟨packet, length, packet.segments, blocks, body, packet.isForm_segments, admissible,
      spelled, measured⟩, rfl, rfl, ?_, fun block member => (canonical block member).ascending, rfl⟩
    refine List.forall_mem_cons.2 ⟨isShortest, fun numeral member => ?_⟩
    obtain ⟨block, inBody, inBlock⟩ := List.mem_flatMap.1 member
    exact (canonical block inBody).shortest numeral inBlock
  · intro found
    obtain ⟨form, rfl, rfl, canonical⟩ := found
    have written : (writtenSegments form.packet.segments).toExcept = .ok form.body := by
      rw [← canonical.chosen]
      exact form.spelled.toExcept_written canonical.blocks
    refine ⟨form.admissible, form.length, form.body, canonical.shortest _ (.head _), ?_, written,
      rfl⟩
    rw [form.measured, form.packet.measures_segments written]

/-- Any form of a packet shows that it can be encoded, and not with more bytes. -/
theorem WireForm.exists_encode (form : WireForm) :
    ∃ bytes, form.packet.encode = .ok bytes ∧ bytes.length ≤ form.bytes.length := by
  obtain ⟨body, written, notLonger⟩ := form.form.exists_written form.spelled
  have size : body.length = form.packet.remainingLength := form.packet.measures_segments written
  have announced : form.packet.remainingLength ≤ form.length.value := by
    rw [form.measured, ← size]
    exact notLonger
  have small := Nat.le_trans announced form.length.value_le
  refine ⟨_, Packet.encode_eq_ok_iff_written.2 ⟨form.admissible, .shortest _ small, body,
    Numeral.isShortest_shortest small, Numeral.value_shortest small, written, rfl⟩, ?_⟩
  have shorter : (Numeral.shortest _ small).bytes.length ≤ form.length.bytes.length := by
    rw [(Numeral.isShortest_shortest small).length_eq, Numeral.value_shortest]
    exact Nat.le_trans (VarInt.size_mono announced) form.length.size_le_length
  simp only [bytes, List.length_cons, List.length_append]
  omega

end MqttWire
