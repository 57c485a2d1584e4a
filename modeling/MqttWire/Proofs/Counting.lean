import MqttWire.Counters
import MqttWire.Proofs.Transmission

/-! # Counting

To count changes no answer. The counter of decoded bytes does not go by the bytes
that were taken: it adds the length that a packet has with the shortest header,
so that the high groups of zeros of a remaining length are left out.
-/

namespace MqttWire

namespace Numeral

/-- How many bytes there are more than in the shortest numeral. -/
def padding (numeral : Numeral) : Nat := numeral.bytes.length - VarInt.size numeral.value

theorem padding_eq_zero_iff {numeral : Numeral} : numeral.padding = 0 ↔ numeral.IsShortest := by
  refine ⟨fun none other sameValue => ?_, fun isShortest => ?_⟩
  · refine Nat.le_trans (Nat.sub_eq_zero_iff_le.1 none) ?_
    rw [← sameValue]
    exact other.size_le_length
  · rw [padding, isShortest.length_eq, Nat.sub_self]

end Numeral

/-- How many bytes the header at the front of a packet is longer than its shortest form. -/
def headerPadding (packet : Bytes) : Nat :=
  match FixedHeader.reader packet with
  | .ok header body => packet.length - body.length - header.encodedLength
  | .error .. => 0

namespace WireForm

variable (form : WireForm)

theorem length_bytes : form.bytes.length = 1 + form.length.bytes.length + form.body.length := by
  rw [bytes, List.length_cons, List.length_append, Nat.add_comm, Nat.add_assoc]

theorem headerPadding_bytes : headerPadding form.bytes = form.length.padding := by
  have spelled : FixedHeader.reader form.bytes = .ok form.header form.body :=
    FixedHeader.accepts_reader.2 ⟨_, ⟨form.length, rfl, rfl⟩, rfl⟩
  have shortest : form.header.encodedLength = 1 + VarInt.size form.length.value := rfl
  simp only [headerPadding, spelled, form.length_bytes, shortest, Numeral.padding]
  omega

/-- The length that is counted, and the bytes that it leaves out. -/
theorem length_add_padding {received : Received} (sameHeader : form.header = received.header) :
    received.length + form.length.padding = form.bytes.length := by
  have shortest := form.length.size_le_length
  have counted : received.length = 1 + VarInt.size form.length.value + form.length.value := by
    rw [Received.length, ← sameHeader]
    rfl
  rw [counted, form.length_bytes, Numeral.padding, ← form.measured]
  omega

end WireForm

/-! ## Counting changes no answer -/

theorem Packet.fst_decodeCounted (buffer : Bytes) (counters : Counters) :
    (decodeCounted buffer counters).1 = decode buffer := by
  simp only [decodeCounted, decode]
  cases Received.ofBuffer buffer <;> rfl

theorem Source.fst_packetCounted (source : Source) (counters : Counters) :
    (source.packetCounted counters).1 = source.answer := by
  simp only [packetCounted, answer, packet, bind, EStateM.bind]
  cases received source <;> rfl

/-- What a packet adds to the counters is the number of its bytes. -/
theorem Packet.encodeCounted_of_ok {packet : Packet} {bytes : Bytes}
    (encoded : packet.encode = .ok bytes) (counters : Counters) :
    packet.encodeCounted counters = (.ok bytes, counters.addEncoded bytes.length) := by
  have written : packet.write [] = .ok bytes.length bytes :=
    Packet.write_eq_ok.2 ⟨bytes, encoded, rfl, rfl⟩
  simp only [encodeCounted, written]
  rfl

theorem Packet.encodeCounted_of_error {packet : Packet} {error : Error}
    (refused : packet.encode = .error error) (counters : Counters) :
    packet.encodeCounted counters = (.error error, counters.addEncodeError) := by
  unfold encode at refused
  cases written : packet.write [] with
  | ok =>
      rw [written] at refused
      cases refused
  | error =>
      rw [written] at refused
      cases refused
      simp only [encodeCounted, written]
      rfl

theorem Sink.fst_packetCounted (packet : Packet) (sink : Sink) (counters : Counters) :
    (packetCounted packet sink counters).1 = sink.answer packet := by
  cases encoded : packet.encode with
  | error error =>
      rw [answer_of_error encoded]
      simp only [packetCounted, Packet.encodeCounted_of_error encoded, bind, StateT.bind]
      rfl
  | ok bytes =>
      simp only [packetCounted, answer, Sink.packet, encoded, Packet.encodeCounted_of_ok encoded,
        bind, StateT.bind, EStateM.bind]
      cases put bytes sink <;> rfl

/-! ## Calls -/

/-- A call for one packet. What one call leaves may or may not be the input of the next. -/
inductive Call where
  | decode (buffer : Bytes)
  | read (source : Source)

namespace Call

/-- Make a call and count it: the bytes that it takes if it succeeds, and the counters. -/
def make : Call → Counters → Bytes × Counters
  | .decode buffer, counters =>
      match Packet.decodeCounted buffer counters with
      | (.ok (_, rest), after) => (buffer.take (buffer.length - rest.length), after)
      | (.error _, after) => ([], after)
  | .read source, counters =>
      match source.packetCounted counters with
      | ((.ok _, left), after) => (source.pending.take (left.position - source.position), after)
      | ((.error _, _), after) => ([], after)

/-- Make calls one after the other. -/
def makeAll : List Call → Counters → List Bytes × Counters
  | [], counters => ([], counters)
  | call :: calls, counters =>
      let (taken, after) := call.make counters
      let (others, final) := makeAll calls after
      (taken :: others, final)

/-- What a call takes, and the counter of decoded bytes before and after it. -/
inductive Counts (before : UInt64) : Bytes → UInt64 → Prop where
  | nothing : Counts before [] before
  | packet {form : WireForm} {counted : Nat}
      (shorter : counted + form.length.padding = form.bytes.length) :
      Counts before form.bytes (before + UInt64.ofNat counted)

theorem Counts.add_padding {before after : UInt64} {taken : Bytes}
    (counts : Counts before taken after) :
    after + UInt64.ofNat (headerPadding taken) = before + UInt64.ofNat taken.length := by
  cases counts with
  | nothing => rfl
  | @packet form counted shorter =>
      rw [form.headerPadding_bytes, ← shorter, UInt64.ofNat_add, UInt64.add_assoc]

theorem Counts.eq_nil_or_form {before after : UInt64} {taken : Bytes}
    (counts : Counts before taken after) : taken = [] ∨ ∃ form : WireForm, form.bytes = taken := by
  cases counts with
  | nothing => exact .inl rfl
  | @packet form => exact .inr ⟨form, rfl⟩

theorem decodedBytes_addDecoded (received : Received) (counters : Counters) :
    (counters.addDecoded received).decodedBytes =
      counters.decodedBytes + UInt64.ofNat received.length := by
  obtain ⟨header, packet⟩ := received
  cases packet <;> rfl

theorem counts_make (call : Call) (counters : Counters) :
    Counts counters.decodedBytes (call.make counters).1 (call.make counters).2.decodedBytes := by
  cases call with
  | decode buffer =>
      cases taken : Received.ofBuffer buffer with
      | error error =>
          simp only [make, Packet.decodeCounted, taken]
          exact .nothing
      | ok found =>
          obtain ⟨received, rest⟩ := found
          obtain ⟨_, ⟨form, -, sameHeader, rfl⟩, rfl⟩ :=
            WireForm.accepts_reader.1 (Received.ofBuffer_eq_ok.1 taken)
          have front : (form.bytes ++ rest).take ((form.bytes ++ rest).length - rest.length) =
              form.bytes := by
            rw [List.length_append, Nat.add_sub_cancel, List.take_left]
          simp only [make, Packet.decodeCounted, taken]
          change Counts _ ((form.bytes ++ rest).take _) (counters.addDecoded received).decodedBytes
          rw [front, decodedBytes_addDecoded]
          exact .packet (form.length_add_padding sameHeader)
  | read source =>
      cases read : Source.received source with
      | error error after =>
          simp only [make, Source.packetCounted, read]
          exact .nothing
      | ok received after =>
          obtain ⟨_, ⟨form, -, sameHeader, rfl⟩, available, rfl⟩ :=
            (Source.follows_received.eq_ok WireForm.accepts_reader).1 read
          obtain ⟨rest, whole⟩ := available.trans source.reachable_isPrefix
          have front : source.pending.take ((source.advance form.bytes.length).position -
              source.position) = form.bytes := by
            rw [Source.advance, Nat.add_sub_cancel_left, ← whole, List.take_left]
          simp only [make, Source.packetCounted, read]
          change Counts _ (source.pending.take _) (counters.addDecoded received).decodedBytes
          rw [front, decodedBytes_addDecoded]
          exact .packet (form.length_add_padding sameHeader)

/-- How many bytes of what was taken do not count. -/
def uncounted (taken : List Bytes) : Nat :=
  taken.foldr (fun packet total => headerPadding packet + total) 0

theorem uncounted_cons (packet : Bytes) (taken : List Bytes) :
    uncounted (packet :: taken) = headerPadding packet + uncounted taken := rfl

theorem eq_nil_or_form_of_mem {calls : List Call} {counters : Counters} {taken : Bytes}
    (member : taken ∈ (makeAll calls counters).1) :
    taken = [] ∨ ∃ form : WireForm, form.bytes = taken := by
  induction calls generalizing counters with
  | nil => cases member
  | cons call calls ih =>
      rcases List.mem_cons.1 member with rfl | later
      · exact (counts_make call counters).eq_nil_or_form
      · exact ih later

theorem uncounted_eq_zero {taken : List Bytes} :
    uncounted taken = 0 ↔ ∀ packet ∈ taken, headerPadding packet = 0 := by
  induction taken with
  | nil => exact ⟨fun _ => nofun, fun _ => rfl⟩
  | cons packet taken ih => rw [uncounted_cons, Nat.add_eq_zero_iff, ih, List.forall_mem_cons]

/-- All bytes count just if every remaining length is written in its shortest form. -/
theorem uncounted_eq_zero_iff {calls : List Call} {counters : Counters} :
    uncounted (makeAll calls counters).1 = 0 ↔
      ∀ form : WireForm, form.bytes ∈ (makeAll calls counters).1 → form.length.IsShortest := by
  rw [uncounted_eq_zero]
  constructor
  · intro none form member
    rw [← Numeral.padding_eq_zero_iff, ← form.headerPadding_bytes]
    exact none _ member
  · intro shortest taken member
    rcases eq_nil_or_form_of_mem member with rfl | ⟨form, rfl⟩
    · rfl
    · rw [form.headerPadding_bytes, Numeral.padding_eq_zero_iff]
      exact shortest form member

/-- Over any calls, the counter grows by what was taken except for the padding of headers. -/
theorem decodedBytes_makeAll (calls : List Call) (counters : Counters) :
    (makeAll calls counters).2.decodedBytes + UInt64.ofNat (uncounted (makeAll calls counters).1) =
      counters.decodedBytes + UInt64.ofNat (makeAll calls counters).1.flatten.length := by
  induction calls generalizing counters with
  | nil => rfl
  | cons call calls ih =>
      have first := (counts_make call counters).add_padding
      have others := ih (call.make counters).2
      simp only [makeAll, uncounted_cons, List.flatten_cons, List.length_append,
        UInt64.ofNat_add] at others ⊢
      generalize UInt64.ofNat (headerPadding (call.make counters).1) = padding at first ⊢
      rw [UInt64.add_comm padding, ← UInt64.add_assoc, others, UInt64.add_assoc,
        UInt64.add_comm _ padding, ← UInt64.add_assoc, first, UInt64.add_assoc]

/-- Whatever was decoded and read, the counter of decoded bytes has grown by the number of bytes
    taken just if those it leaves out come to a multiple of 2⁶⁴. -/
theorem decodedBytes_sub_eq_iff (calls : List Call) (counters : Counters) :
    (makeAll calls counters).2.decodedBytes - counters.decodedBytes =
        UInt64.ofNat (makeAll calls counters).1.flatten.length ↔
      UInt64.size ∣ uncounted (makeAll calls counters).1 := by
  have grown := decodedBytes_makeAll calls counters
  have wraps : UInt64.size ∣ uncounted (makeAll calls counters).1 ↔
      UInt64.ofNat (uncounted (makeAll calls counters).1) = 0 := by
    rw [UInt64.ofNat_eq_iff_mod_eq_toNat, Nat.dvd_iff_mod_eq_zero]
    rfl
  rw [wraps, UInt64.sub_eq_iff_eq_add, UInt64.add_comm (UInt64.ofNat _), ← grown, UInt64.left_eq_add]

/-- A DISCONNECT with a remaining length of two bytes, off a buffer and from a source: of the
    six bytes taken four are counted. -/
theorem decodedBytes_padded_disconnect :
    let calls : List Call := [.decode [224, 128, 0], .read { pending := [224, 128, 0] }]
    (makeAll calls {}).1 = [[224, 128, 0], [224, 128, 0]] ∧
      (makeAll calls {}).2.decodedBytes = 4 := by
  decide +kernel

end Call

end MqttWire
