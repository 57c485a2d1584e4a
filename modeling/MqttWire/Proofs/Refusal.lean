import MqttWire.Proofs.WireForm

/-! # Packets without an encoding

A packet is refused for a client identifier or a packet identifier that it may
not have, for the topic of a message, for its remaining length, or for a field
that does not fit a two byte length, in this order. Nothing else stops a writer:
identifiers and numbers of properties always fit, and so does the length of a
block within a remaining length that fits.
-/

namespace MqttWire

/-- What a two byte length has to announce. -/
structure LengthPrefixed where
  measured : Measured
  length : Nat
  deriving Repr, DecidableEq

/-- Cause for which the length cannot be announced. -/
def LengthPrefixed.fault? (field : LengthPrefixed) : Option Fault :=
  if field.length ≤ maxFieldLength then none else some (.tooLong field.measured field.length)

/-- Cause for which the first of the lengths that are too large cannot be announced. -/
def LengthPrefixed.firstFault? (fields : List LengthPrefixed) : Option Fault :=
  fields.findSome? fault?

open LengthPrefixed

namespace LengthPrefixed

theorem firstFault?_append (first second : List LengthPrefixed) :
    firstFault? (first ++ second) = (firstFault? first).or (firstFault? second) :=
  List.findSome?_append

theorem firstFault?_singleton (field : LengthPrefixed) : firstFault? [field] = field.fault? := by
  unfold firstFault?
  rw [List.findSome?_cons]
  cases field.fault? <;> rfl

theorem fault?_eq_none_iff {field : LengthPrefixed} :
    field.fault? = none ↔ field.length ≤ maxFieldLength := by
  unfold fault?
  split <;> simp [*]

theorem firstFault?_eq_none_iff {fields : List LengthPrefixed} :
    firstFault? fields = none ↔ ∀ field ∈ fields, field.length ≤ maxFieldLength := by
  simp only [firstFault?, List.findSome?_eq_none_iff, fault?_eq_none_iff]

end LengthPrefixed

/-! ## Why a draft stops -/

namespace Draft

/-- Cause that stopped the output. -/
def fault? (draft : Draft) : Option Fault := draft.error?.map Error.root

@[simp] theorem fault?_append (first second : Draft) :
    (first ++ second).fault? = first.fault?.or second.fault? := by
  obtain ⟨bytes, _ | error⟩ := first <;> rfl

@[simp] theorem fault?_within (layer : Layer) (draft : Draft) :
    (draft.within layer).fault? = draft.fault? := by
  obtain ⟨bytes, _ | error⟩ := draft <;> rfl

@[simp] theorem fault?_inField (field : Field) (draft : Draft) :
    (draft.inField field).fault? = draft.fault? :=
  fault?_within (.field field) draft

@[simp] theorem fault?_raw (bytes : Bytes) : (raw bytes).fault? = none := rfl

@[simp] theorem fault?_empty : empty.fault? = none := rfl

@[simp] theorem fault?_byte (value : UInt8) : (byte value).fault? = none := rfl

@[simp] theorem fault?_uint16 (value : UInt16) : (uint16 value).fault? = none := rfl

@[simp] theorem fault?_uint32 (value : UInt32) : (uint32 value).fault? = none := rfl

@[simp] theorem fault?_require (condition : Bool) (fault : Fault) :
    (require condition fault).fault? = if condition then none else some fault := by
  cases condition <;> rfl

@[simp] theorem fault?_measured (measured : Measured) (content : Bytes) :
    (Draft.measured measured content).fault? =
      LengthPrefixed.fault? ⟨measured, content.length⟩ := by
  unfold Draft.measured LengthPrefixed.fault?
  split <;> rfl

@[simp] theorem fault?_binary (content : Bytes) :
    (binary content).fault? = LengthPrefixed.fault? ⟨.binary, content.length⟩ :=
  fault?_measured .binary content

@[simp] theorem fault?_text (content : String) :
    (text content).fault? = LengthPrefixed.fault? ⟨.text, content.utf8ByteSize⟩ :=
  fault?_measured .text (Utf8.encode content)

@[simp] theorem fault?_varInt (value : Nat) :
    (VarInt.draft value).fault? =
      if value ≤ maxVarInt then none else some (.varIntOverflow value) := by
  unfold VarInt.draft
  split <;> rfl

theorem fault?_optional {write : α → Draft} {fields : α → List LengthPrefixed}
    (stops : ∀ value, (write value).fault? = firstFault? (fields value)) (value? : Option α) :
    (optional value? write).fault? = firstFault? (value?.elim [] fields) := by
  cases value? with
  | none => rfl
  | some value => exact stops value

theorem fault?_concat_map {write : α → Draft} {fields : α → List LengthPrefixed} {list : List α}
    (stops : ∀ value ∈ list, (write value).fault? = firstFault? (fields value)) :
    (concat (list.map write)).fault? = firstFault? (list.flatMap fields) := by
  induction list with
  | nil => rfl
  | cons value list ih =>
      obtain ⟨first, others⟩ := List.forall_mem_cons.1 stops
      rw [List.map_cons, concat_cons, fault?_append, first, ih others, List.flatMap_cons,
        firstFault?_append]

theorem toExcept_eq_ok_iff {draft : Draft} :
    (∃ bytes, draft.toExcept = .ok bytes) ↔ draft.fault? = none := by
  obtain ⟨bytes, _ | error⟩ := draft
  · exact ⟨fun _ => rfl, fun _ => ⟨bytes, rfl⟩⟩
  · exact ⟨nofun, nofun⟩

theorem root_of_toExcept {draft : Draft} {error : Error} (stopped : draft.toExcept = .error error) :
    draft.fault? = some error.root := by
  obtain ⟨bytes, _ | error'⟩ := draft
  · cases stopped
  · cases stopped
    rfl

end Draft

/-! ## Properties -/

/-- Lengths that the value announces in front of its parts. -/
def Datum.lengthPrefixed : Datum → List LengthPrefixed
  | .text value => [⟨.text, value.utf8ByteSize⟩]
  | .pair value => [⟨.text, value.key.utf8ByteSize⟩, ⟨.text, value.value.utf8ByteSize⟩]
  | .binary value => [⟨.binary, value.length⟩]
  | _ => []

/-- Lengths that the values announce, in write order. -/
def Properties.lengthPrefixed (properties : Properties) : List LengthPrefixed :=
  properties.toList.flatMap fun property => property.value.lengthPrefixed

theorem Datum.fault?_draft {datum : Datum} (small : datum.overflow? = none) :
    datum.draft.fault? = firstFault? datum.lengthPrefixed := by
  cases datum with
  | byte => rfl
  | uint16 => rfl
  | uint32 => rfl
  | varInt value =>
      simp only [overflow?, ite_eq_left_iff, reduceCtorEq, imp_false, Decidable.not_not] at small
      simp [draft, lengthPrefixed, firstFault?, small]
  | text value => simp [draft, lengthPrefixed, firstFault?_singleton]
  | pair value =>
      simp only [draft, TextPair.draft, Draft.fault?_append, Draft.fault?_text, lengthPrefixed,
        ← firstFault?_singleton, ← firstFault?_append, List.singleton_append]
  | binary value => simp [draft, lengthPrefixed, firstFault?_singleton]

theorem PropertyId.code_le (id : PropertyId) : id.code ≤ maxVarInt := by
  cases id <;> decide

theorem Property.fault?_draft (property : Property) :
    property.draft.fault? = firstFault? property.value.lengthPrefixed := by
  rw [draft, Draft.fault?_append, Draft.fault?_varInt, if_pos property.id.code_le, Option.none_or,
    Datum.fault?_draft property.overflow_value]

/-- Within a remaining length that fits, only its values can stop the writer of a
    block. -/
theorem Properties.fault?_draft {properties : Properties} {remaining : Nat}
    (inside : properties.encodedLength ≤ remaining) (small : remaining ≤ maxVarInt) :
    properties.draft.fault? = firstFault? properties.lengthPrefixed := by
  have size : properties.size ≤ maxVarInt := by
    rw [encodedLength] at inside
    omega
  rw [draft, Draft.fault?_append, Draft.fault?_varInt, if_pos size, Option.none_or,
    Draft.fault?_concat_map fun property _ => property.fault?_draft, lengthPrefixed]

/-! ## Bodies -/

theorem Connack.fault?_body {packet : Connack} (small : packet.remainingLength ≤ maxVarInt) :
    packet.body.fault? = firstFault? packet.properties.lengthPrefixed := by
  rw [← Properties.fault?_draft (Nat.le_add_left ..) small]
  simp [body, Draft.concat_cons, Draft.concat_nil]

theorem Suback.fault?_body {packet : Suback} (small : packet.remainingLength ≤ maxVarInt) :
    packet.body.fault? = firstFault? packet.properties.lengthPrefixed := by
  have inside : packet.properties.encodedLength ≤ packet.remainingLength := by
    rw [remainingLength]
    omega
  rw [← Properties.fault?_draft inside small]
  simp [body, Draft.concat_cons, Draft.concat_nil]

theorem Disconnect.fault?_body {packet : Disconnect} (small : packet.remainingLength ≤ maxVarInt) :
    packet.body.fault? = firstFault? packet.properties.lengthPrefixed := by
  rw [remainingLength] at small
  unfold body
  split at small
  · rename_i isEmpty
    have noFields : packet.properties.lengthPrefixed = [] := by
      rw [Properties.eq_empty_of_isEmpty isEmpty]
      rfl
    rw [noFields, if_pos isEmpty]
    split <;> rfl
  · rename_i notEmpty
    rw [← Properties.fault?_draft (Nat.le_add_left ..) small, if_neg notEmpty]
    simp

/-- Lengths that the packet announces, in write order. -/
def Publish.lengthPrefixed (packet : Publish) : List LengthPrefixed :=
  ⟨.topic, packet.topic.length⟩ :: packet.properties.lengthPrefixed

theorem Publish.fault?_body {packet : Publish} (small : packet.remainingLength ≤ maxVarInt)
    (topicFits : packet.topic.length ≤ maxFieldLength) :
    packet.body.fault? = firstFault? packet.lengthPrefixed := by
  have inside : packet.properties.encodedLength ≤ packet.remainingLength := by
    rw [remainingLength]
    omega
  -- The writer of the field measures the topic once more, as a text.
  have fits : ∀ measured, fault? ⟨measured, packet.topic.length⟩ = none :=
    fun _ => fault?_eq_none_iff.2 topicFits
  rw [lengthPrefixed, ← List.singleton_append, firstFault?_append, firstFault?_singleton, fits,
    ← Properties.fault?_draft inside small]
  simp [body, Draft.concat_cons, Draft.concat_nil, packet.topic.utf8ByteSize_name, fits]

/-- Lengths that the packet announces, in write order. -/
def Subscribe.lengthPrefixed (packet : Subscribe) : List LengthPrefixed :=
  packet.properties.lengthPrefixed ++
    packet.filters.map fun filter => ⟨.text, filter.filter.utf8ByteSize⟩

theorem SubscriptionFilter.fault?_draft (filter : SubscriptionFilter) :
    filter.draft.fault? = firstFault? [⟨.text, filter.filter.utf8ByteSize⟩] := by
  simp [draft, firstFault?_singleton]

theorem Subscribe.fault?_body {packet : Subscribe} (small : packet.remainingLength ≤ maxVarInt) :
    packet.body.fault? = firstFault? packet.lengthPrefixed := by
  have inside : packet.properties.encodedLength ≤ packet.remainingLength := by
    rw [remainingLength]
    omega
  have filters := Draft.fault?_concat_map fun filter (_ : filter ∈ packet.filters) =>
    filter.fault?_draft
  rw [lengthPrefixed, firstFault?_append, ← Properties.fault?_draft inside small,
    List.map_eq_flatMap, ← filters]
  simp [body, Draft.concat_cons, Draft.concat_nil]

/-- Lengths that the will announces, in write order. -/
def Will.lengthPrefixed (will : Will) : List LengthPrefixed :=
  will.properties.lengthPrefixed ++
    [⟨.text, will.topic.utf8ByteSize⟩, ⟨.binary, will.payload.length⟩]

/-- Lengths that the packet announces, in write order. The client identifier is
    left out, as a lower limit holds for it. -/
def Connect.lengthPrefixed (packet : Connect) : List LengthPrefixed :=
  packet.properties.lengthPrefixed ++ (packet.will.elim [] Will.lengthPrefixed ++
    (packet.username.elim [] (fun username => [⟨.text, username.utf8ByteSize⟩]) ++
      packet.password.elim [] fun password => [⟨.binary, password.length⟩]))

theorem Connect.fault?_willDraft {will : Will} {remaining : Nat} (inside : will.size ≤ remaining)
    (small : remaining ≤ maxVarInt) :
    (willDraft will).fault? = firstFault? will.lengthPrefixed := by
  have block : will.properties.encodedLength ≤ remaining := by
    rw [Will.size] at inside
    omega
  rw [Will.lengthPrefixed, firstFault?_append, ← Properties.fault?_draft block small,
    ← List.singleton_append, firstFault?_append, firstFault?_singleton, firstFault?_singleton]
  simp [willDraft, Draft.concat_cons, Draft.concat_nil]

theorem Connect.fault?_body {packet : Connect} (small : packet.remainingLength ≤ maxVarInt)
    (short : packet.clientId.utf8ByteSize ≤ maxClientIdLength) :
    packet.body.fault? = firstFault? packet.lengthPrefixed := by
  have inside : packet.properties.encodedLength ≤ packet.remainingLength := by
    rw [remainingLength]
    omega
  have clientId : fault? ⟨.text, packet.clientId.utf8ByteSize⟩ = none :=
    fault?_eq_none_iff.2 (Nat.le_trans short (by decide))
  have will : (Draft.optional packet.will willDraft).fault? =
      firstFault? (packet.will.elim [] Will.lengthPrefixed) := by
    cases known : packet.will with
    | none => rfl
    | some will =>
        refine fault?_willDraft ?_ small
        simp only [remainingLength, known, Option.elim_some]
        omega
  have username := Draft.fault?_optional (fun username => show
    ((Draft.text username).inField .username).fault? = firstFault? [⟨.text, username.utf8ByteSize⟩]
    by simp [firstFault?_singleton]) packet.username
  have password := Draft.fault?_optional (fun password => show
    ((Draft.binary password).inField .password).fault? = firstFault? [⟨.binary, password.length⟩]
    by simp [firstFault?_singleton]) packet.password
  simp only [lengthPrefixed, firstFault?_append, ← will, ← username, ← password,
    ← Properties.fault?_draft inside small]
  simp [body, Draft.concat_cons, Draft.concat_nil, clientId]

/-! ## Packets -/

namespace Packet

/-- Lengths that the packet announces in front of its fields, in write order. -/
def lengthPrefixed : Packet → List LengthPrefixed
  | .connect packet => packet.lengthPrefixed
  | .connack packet => packet.properties.lengthPrefixed
  | .publish packet => packet.lengthPrefixed
  | .subscribe packet => packet.lengthPrefixed
  | .suback packet => packet.properties.lengthPrefixed
  | .disconnect packet => packet.properties.lengthPrefixed

/-- A packet that the format has bytes for. -/
structure IsRepresentable (packet : Packet) : Prop where
  /-- The client identifier of a CONNECT is short enough, the packet identifier
      of a PUBLISH is not zero. -/
  admissible : packet.IsAdmissible
  fields : ∀ field ∈ packet.lengthPrefixed, field.length ≤ maxFieldLength
  remaining : packet.remainingLength ≤ maxVarInt

/-- Cause that lies in an identifier of the packet. -/
def identifierFault? : Packet → Option Fault
  | .connect packet =>
      if packet.clientId.utf8ByteSize ≤ maxClientIdLength then none
      else some (.clientIdTooLong packet.clientId.utf8ByteSize)
  | .publish packet => if packet.packetId = 0 then some .zeroPacketId else none
  | _ => none

/-- Cause that lies in the topic of a PUBLISH. -/
def topicFault? : Packet → Option Fault
  | .publish packet => LengthPrefixed.fault? ⟨.topic, packet.topic.length⟩
  | _ => none

/-- Cause that lies in the remaining length. -/
def remainingFault? (packet : Packet) : Option Fault :=
  if packet.remainingLength ≤ maxVarInt then none else some (.varIntOverflow packet.remainingLength)

/-- Cause for which the packet has no encoding, the first one in this order. -/
def refusal? (packet : Packet) : Option Fault :=
  packet.identifierFault?.or <| packet.topicFault?.or <| packet.remainingFault?.or <|
    firstFault? packet.lengthPrefixed

theorem identifierFault?_eq_none_iff {packet : Packet} :
    packet.identifierFault? = none ↔ packet.IsAdmissible := by
  cases packet <;> simp [identifierFault?, IsAdmissible]

theorem remainingFault?_eq_none_iff {packet : Packet} :
    packet.remainingFault? = none ↔ packet.remainingLength ≤ maxVarInt := by
  simp [remainingFault?]

theorem refusal?_eq_none_iff {packet : Packet} :
    packet.refusal? = none ↔ packet.IsRepresentable := by
  have topic : firstFault? packet.lengthPrefixed = none → packet.topicFault? = none := by
    intro fits
    cases packet with
    | publish packet => exact fault?_eq_none_iff.2 (firstFault?_eq_none_iff.1 fits _ (.head _))
    | _ => rfl
  simp only [refusal?, Option.or_eq_none_iff, identifierFault?_eq_none_iff,
    remainingFault?_eq_none_iff]
  constructor
  · rintro ⟨admissible, -, small, fits⟩
    exact ⟨admissible, firstFault?_eq_none_iff.1 fits, small⟩
  · rintro ⟨admissible, fields, small⟩
    have fits := firstFault?_eq_none_iff.2 fields
    exact ⟨admissible, topic fits, small, fits⟩

/-- Once the identifiers, the topic and the remaining length are found right, only
    a field can stop the writer. -/
theorem fault?_segments {packet : Packet} (admissible : packet.IsAdmissible)
    (topicFits : packet.topicFault? = none) (small : packet.remainingLength ≤ maxVarInt) :
    (writtenSegments packet.segments).fault? = firstFault? packet.lengthPrefixed := by
  cases packet with
  | connect packet => exact packet.body_eq ▸ Connect.fault?_body small admissible
  | connack packet => exact Connack.fault?_body small
  | publish packet => exact Publish.fault?_body small (fault?_eq_none_iff.1 topicFits)
  | subscribe packet => exact Subscribe.fault?_body small
  | suback packet => exact Suback.fault?_body small
  | disconnect packet => exact packet.body_eq ▸ Disconnect.fault?_body small

theorem fault?_header (packet : Packet) : packet.header.draft.fault? = packet.remainingFault? := by
  simp [FixedHeader.draft, remainingLength_header, remainingFault?]

/-- The checks of a writer in order. -/
theorem fault?_bareDraft_eq (packet : Packet) :
    packet.bareDraft.fault? = packet.identifierFault?.or (packet.topicFault?.or
      (packet.remainingFault?.or (writtenSegments packet.segments).fault?)) := by
  rw [← fault?_header]
  cases packet with
  | connect packet =>
      rw [bareDraft, Connect.draft, Connect.checks, Connect.body_eq, Draft.fault?_append, Draft.fault?_append,
        Draft.fault?_require, Option.or_assoc]
      simp only [decide_eq_true_eq]
      rfl
  | publish packet =>
      rw [bareDraft, Publish.draft, Publish.checks, Publish.body_eq, Draft.fault?_append, Draft.fault?_append,
        Draft.fault?_append, Draft.fault?_require, Draft.fault?_require, Option.or_assoc,
        Option.or_assoc]
      simp only [decide_eq_true_eq, bne_iff_ne, ite_not, ne_eq]
      rfl
  | disconnect packet =>
      rw [bareDraft, Disconnect.draft, Disconnect.body_eq, Draft.fault?_append]
      rfl
  | connack packet => exact Draft.fault?_append ..
  | subscribe packet => exact Draft.fault?_append ..
  | suback packet => exact Draft.fault?_append ..

theorem fault?_bareDraft (packet : Packet) : packet.bareDraft.fault? = packet.refusal? := by
  rw [fault?_bareDraft_eq, refusal?]
  cases identifier : packet.identifierFault? with
  | some fault => rfl
  | none =>
      cases topic : packet.topicFault? with
      | some fault => rfl
      | none =>
          cases remaining : packet.remainingFault? with
          | some fault => rfl
          | none =>
              rw [fault?_segments (identifierFault?_eq_none_iff.1 identifier) topic
                (remainingFault?_eq_none_iff.1 remaining)]

theorem head?_context_of_encode {packet : Packet} {error : Error}
    (refused : packet.encode = .error error) :
    error.context.head? = some (.packet packet.type) := by
  rw [encode_eq, draft, Draft.toExcept_within] at refused
  cases bare : packet.bareDraft.toExcept with
  | ok =>
      rw [bare] at refused
      cases refused
  | error inner =>
      rw [bare] at refused
      cases refused
      rfl

/-- Encoding succeeds on the packets that can be represented and on no others.
    Elsewhere it reports the first cause, under the name of the packet. -/
theorem encode_outcome (packet : Packet) :
    match packet.encode with
    | .ok _ => packet.IsRepresentable
    | .error error =>
        ¬packet.IsRepresentable ∧ packet.refusal? = some error.root ∧
          error.context.head? = some (.packet packet.type) := by
  have stops : packet.draft.fault? = packet.refusal? := by
    rw [draft, Draft.fault?_within, fault?_bareDraft]
  cases encoded : packet.encode with
  | ok bytes =>
      apply refusal?_eq_none_iff.1
      rw [← stops]
      exact Draft.toExcept_eq_ok_iff.1 ⟨bytes, packet.encode_eq ▸ encoded⟩
  | error error =>
      have cause : packet.refusal? = some error.root :=
        stops ▸ Draft.root_of_toExcept (packet.encode_eq ▸ encoded)
      refine ⟨?_, cause, head?_context_of_encode encoded⟩
      intro representable
      rw [refusal?_eq_none_iff.2 representable] at cause
      cases cause

end Packet

end MqttWire
