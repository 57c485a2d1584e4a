import MqttWire.Proofs.Arrival
import MqttWire.Proofs.Exhaustion
import MqttWire.Stream.Sink

/-! # Packets over a bounded sink

Packets that are put away one after the other are whole on the wire up to the
first that does not fit. Of that one there is a torn front, and of the later ones
nothing. Whoever reads the wire gets the whole packets in order and then only
failures: a torn front is no packet.
-/

namespace MqttWire

/-! ## Packets one behind the other -/

namespace Packet

/-- The packets that have an encoding. -/
def encodable (packets : List Packet) : List Packet :=
  packets.filter fun packet => packet.encode.isOk

/-- The encodings of packets, of those that have one. -/
def encodings (packets : List Packet) : List Bytes :=
  packets.filterMap fun packet => packet.encode.toOption

/-- The encodings one behind the other. -/
def wire (packets : List Packet) : Bytes := (encodings packets).flatten

section Encodings

variable {packet : Packet} {bytes : Bytes} {error : Error}

theorem encodings_cons_of_ok (encoded : packet.encode = .ok bytes) (packets : List Packet) :
    encodings (packet :: packets) = bytes :: encodings packets := by
  simp [encodings, encoded, Except.toOption]

theorem encodings_cons_of_error (refused : packet.encode = .error error)
    (packets : List Packet) : encodings (packet :: packets) = encodings packets := by
  simp [encodings, refused, Except.toOption]

theorem encodable_cons_of_ok (encoded : packet.encode = .ok bytes) (packets : List Packet) :
    encodable (packet :: packets) = packet :: encodable packets := by
  simp [encodable, encoded, Except.isOk, Except.toBool]

theorem encodable_cons_of_error (refused : packet.encode = .error error)
    (packets : List Packet) : encodable (packet :: packets) = encodable packets := by
  simp [encodable, refused, Except.isOk, Except.toBool]

theorem wire_singleton_of_ok (encoded : packet.encode = .ok bytes) : wire [packet] = bytes := by
  rw [wire, encodings_cons_of_ok encoded, List.flatten_cons]
  exact List.append_nil bytes

theorem wire_singleton_of_error (refused : packet.encode = .error error) : wire [packet] = [] := by
  rw [wire, encodings_cons_of_error refused]
  rfl

theorem wire_cons (packet : Packet) (packets : List Packet) :
    wire (packet :: packets) = wire [packet] ++ wire packets := by
  cases encoded : packet.encode with
  | error error =>
      rw [wire_singleton_of_error encoded, wire, encodings_cons_of_error encoded]
      rfl
  | ok bytes =>
      rw [wire_singleton_of_ok encoded, wire, encodings_cons_of_ok encoded]
      rfl

/-- Only a packet that has an encoding has something on the wire. -/
theorem encode_of_wire_ne_nil (something : wire [packet] ≠ []) :
    packet.encode = .ok (wire [packet]) := by
  cases encoded : packet.encode with
  | error error => exact absurd (wire_singleton_of_error encoded) something
  | ok bytes => rw [wire_singleton_of_ok encoded]

end Encodings

/-- An encoding is a frame, and decoding it gives the packet. -/
theorem isFrame_of_encode {packet : Packet} {bytes : Bytes}
    (encoded : packet.encode = .ok bytes) :
    IsFrame bytes ∧ (decode bytes).map Prod.fst = .ok packet := by
  obtain ⟨form, rfl, rfl, -⟩ := encode_eq_ok.1 encoded
  constructor
  · refine .mk (fun untyped => ?_) form.measured
    have known := form.header.ofCode?_firstByte
    rw [untyped] at known
    cases known
  · rw [decode_eq_ok.2 ⟨form, rfl, List.append_nil _⟩]
    rfl

theorem bytes_ne_nil_of_encode {packet : Packet} {bytes : Bytes}
    (encoded : packet.encode = .ok bytes) : bytes ≠ [] := by
  obtain ⟨form, -, rfl, -⟩ := encode_eq_ok.1 encoded
  exact List.cons_ne_nil _ _

theorem isFrame_of_mem_encodings {packets : List Packet} {bytes : Bytes}
    (member : bytes ∈ encodings packets) : IsFrame bytes := by
  obtain ⟨packet, -, found⟩ := List.mem_filterMap.1 member
  cases encoded : packet.encode with
  | error error =>
      rw [encoded] at found
      cases found
  | ok bytes =>
      rw [encoded] at found
      cases found
      exact (isFrame_of_encode encoded).1

/-- Decoding the encodings one by one gives the encodable packets. -/
theorem map_decode_encodings (packets : List Packet) :
    (encodings packets).map (fun bytes => (decode bytes).map Prod.fst) =
      (encodable packets).map .ok := by
  induction packets with
  | nil => rfl
  | cons packet packets ih =>
      cases encoded : packet.encode with
      | error =>
          rw [encodings_cons_of_error encoded, encodable_cons_of_error encoded, ih]
      | ok bytes =>
          rw [encodings_cons_of_ok encoded, encodable_cons_of_ok encoded, List.map_cons,
            List.map_cons, (isFrame_of_encode encoded).2, ih]

end Packet

/-! ## Putting packets away -/

namespace Sink

open Packet (wire)

/-- Put a packet away: the answer, and the sink afterwards. -/
def answer (sink : Sink) (next : Packet) : Except Error Nat × Sink :=
  match packet next sink with
  | .ok count after => (.ok count, after)
  | .error error after => (.error error, after)

/-- Put packets away one after the other, whatever the answers. -/
def answers : List Packet → Sink → List (Except Error Nat) × Sink
  | [], sink => ([], sink)
  | next :: packets, sink =>
      let (first, after) := sink.answer next
      let (others, final) := answers packets after
      (first :: others, final)

/-- The answer for a packet as long as there is room: the number of its bytes, or why
    it has no encoding. -/
def answerIfRoom (next : Packet) : Except Error Nat := next.encode.map List.length

/-- The answer for a packet that does not fit: the sink fails, unless the packet has no
    encoding to be put away. -/
def answerIfFull (next : Packet) : Except Error Nat :=
  next.encode.bind fun _ => .error (Fault.io .sinkFull)

/-- Where packets are cut off that are put away with so much room: those that are whole
    on the wire, those that are not, and the torn front of the first of the latter. -/
inductive Cut (room : Nat) : List Packet → List Packet → Bytes → Prop where
  | nowhere {written : List Packet} (fits : (wire written).length ≤ room) : Cut room written [] []
  | within {written later : List Packet} {next : Packet} {front lost : Bytes}
      (encoded : next.encode = .ok (front ++ lost)) (isTorn : lost ≠ [])
      (full : (wire written).length + front.length = room) : Cut room written (next :: later) front

section Steps

variable {sink : Sink} {next : Packet}

theorem answer_of_error {error : Error} (refused : next.encode = .error error) :
    sink.answer next = (.error error, sink) := by
  simp only [answer, packet, refused]
  rfl

/-- What has room is put away whole; a packet without encoding needs none. -/
theorem answer_of_le (fits : (wire [next]).length ≤ sink.room) :
    sink.answer next = (answerIfRoom next,
      { room := sink.room - (wire [next]).length, taken := sink.taken ++ wire [next] }) := by
  rw [answerIfRoom]
  cases encoded : next.encode with
  | error error =>
      rw [answer_of_error encoded, Packet.wire_singleton_of_error encoded, List.append_nil]
      rfl
  | ok bytes =>
      rw [Packet.wire_singleton_of_ok encoded] at fits ⊢
      simp only [answer, packet, encoded, put, bind, EStateM.bind, if_pos fits,
        List.take_of_length_le fits]
      rfl

/-- A packet that does not fit fills up the sink. -/
theorem answer_of_lt {bytes : Bytes} (encoded : next.encode = .ok bytes)
    (tooLong : sink.room < bytes.length) :
    sink.answer next =
      (answerIfFull next, { room := 0, taken := sink.taken ++ bytes.take sink.room }) := by
  have noRoom : sink.room - bytes.length = 0 := Nat.sub_eq_zero_of_le (Nat.le_of_lt tooLong)
  rw [answerIfFull, encoded]
  simp only [answer, packet, encoded, put, bind, EStateM.bind, if_neg (Nat.not_le.2 tooLong), noRoom]
  rfl

/-- A full sink takes no more bytes. -/
theorem answer_of_full (next : Packet) (taken : Bytes) :
    answer { room := 0, taken } next = (answerIfFull next, { room := 0, taken }) := by
  cases encoded : next.encode with
  | error error =>
      rw [answer_of_error encoded, answerIfFull, encoded]
      rfl
  | ok bytes =>
      have tooLong : 0 < bytes.length :=
        List.length_pos_iff.2 (Packet.bytes_ne_nil_of_encode encoded)
      rw [answer_of_lt encoded tooLong, List.take_zero, List.append_nil]

end Steps

theorem answers_of_full (packets : List Packet) (taken : Bytes) :
    answers packets { room := 0, taken } = (packets.map answerIfFull, { room := 0, taken }) := by
  induction packets with
  | nil => rfl
  | cons next packets ih => simp only [answers, answer_of_full, ih, List.map_cons]

/-- What is put away first moves the cut by its bytes. -/
theorem Cut.cons {room : Nat} {written left : List Packet} {torn : Bytes}
    (cut : Cut room written left torn) (next : Packet) :
    Cut ((wire [next]).length + room) (next :: written) left torn := by
  cases cut with
  | nowhere fits =>
      refine .nowhere ?_
      rw [Packet.wire_cons, List.length_append]
      exact Nat.add_le_add_left fits _
  | within encoded isTorn full =>
      refine .within encoded isTorn ?_
      rw [Packet.wire_cons, List.length_append, Nat.add_assoc, full]

/-- The first packet that does not fit is cut within. -/
theorem cut_within {room : Nat} {next : Packet} {bytes : Bytes} (later : List Packet)
    (encoded : next.encode = .ok bytes) (tooLong : room < bytes.length) :
    Cut room [] (next :: later) (bytes.take room) := by
  have split : next.encode = .ok (bytes.take room ++ bytes.drop room) := by
    rw [List.take_append_drop, encoded]
  have lost : 0 < (bytes.drop room).length := by
    rw [List.length_drop]
    exact Nat.sub_pos_of_lt tooLong
  refine .within split (List.ne_nil_of_length_pos lost) ?_
  rw [List.length_take, Nat.min_eq_left (Nat.le_of_lt tooLong)]
  exact Nat.zero_add _

theorem exists_cut (packets : List Packet) (sink : Sink) :
    ∃ written left torn, written ++ left = packets ∧ Cut sink.room written left torn ∧
      (sink.answers packets).1 = written.map answerIfRoom ++ left.map answerIfFull ∧
      (sink.answers packets).2.taken = sink.taken ++ (wire written ++ torn) := by
  induction packets generalizing sink with
  | nil => exact ⟨[], [], [], rfl, .nowhere (Nat.zero_le _), rfl, (List.append_nil _).symm⟩
  | cons next packets ih =>
      by_cases fits : (wire [next]).length ≤ sink.room
      · obtain ⟨written, left, torn, rfl, cut, answered, taken⟩ :=
          ih { room := sink.room - (wire [next]).length, taken := sink.taken ++ wire [next] }
        refine ⟨next :: written, left, torn, rfl, ?_, ?_, ?_⟩
        · rw [← Nat.add_sub_cancel' fits]
          exact cut.cons next
        · simp only [answers, answer_of_le fits, answered, List.map_cons, List.cons_append]
        · simp only [answers, answer_of_le fits, taken, Packet.wire_cons next written,
            List.append_assoc]
      · have tooLong : sink.room < (wire [next]).length := Nat.lt_of_not_le fits
        have encoded : next.encode = .ok (wire [next]) :=
          Packet.encode_of_wire_ne_nil (List.ne_nil_of_length_pos (Nat.zero_lt_of_lt tooLong))
        refine ⟨[], next :: packets, _, rfl, cut_within packets encoded tooLong, ?_, ?_⟩
        · simp only [answers, answer_of_lt encoded tooLong, answers_of_full, List.map_nil,
            List.nil_append, List.map_cons]
        · simp only [answers, answer_of_lt encoded tooLong, answers_of_full]
          rfl

/-- What is torn off is no whole frame. -/
theorem Cut.exists_isIncomplete {room : Nat} {written left : List Packet} {torn : Bytes}
    (cut : Cut room written left torn) : ∃ needed got, IsIncomplete torn needed got := by
  cases cut with
  | nowhere => exact ⟨1, 0, .nothing⟩
  | within encoded isTorn =>
      refine exists_isIncomplete_of_encode encoded (List.prefix_append ..) fun whole => isTorn ?_
      have shorter := whole.length_le
      rw [List.length_append] at shorter
      exact List.length_eq_zero_iff.1 (by omega)

end Sink

/-! ## Reading back -/

/-- A source with packets one behind the other and no whole frame behind them gives the
    packets and then only failures. -/
theorem Source.answers_of_wire {source : Source} {packets : List Packet} {torn : Bytes}
    (whole : Packet.wire packets ++ torn = source.reachable)
    {needed got : Nat} (incomplete : IsIncomplete torn needed got) (more : Nat) :
    ∃ failures, failures.length = more ∧
      (∀ answer ∈ failures, ∃ error, answer = .error error ∧ error.IsIo) ∧
      (source.answers ((Packet.encodable packets).length + more)).1 =
        (Packet.encodable packets).map .ok ++ failures := by
  have decoded := Packet.map_decode_encodings packets
  have asMany : (Packet.encodings packets).length = (Packet.encodable packets).length := by
    rw [← List.length_map, decoded, List.length_map]
  have inOrder := answers_of_frames (fun _ => Packet.isFrame_of_mem_encodings)
    (⟨torn, whole⟩ : Packet.wire packets <+: source.reachable)
  have behind : IsIncomplete (source.advance (Packet.wire packets).length).reachable needed got :=
    reachable_advance_of_append whole ▸ incomplete
  obtain ⟨length, areIo⟩ := answers_of_isIncomplete behind more
  refine ⟨_, length, areIo, ?_⟩
  rw [answers_add, ← asMany, inOrder, decoded]
  rfl

/-- Packets that are put away one after the other, and what becomes of them.

    On the wire are the encodings of those in front of the cut and a torn front of the
    first one behind it. Whoever asks for packets at the other end gets those in front of the cut
    and, however often, only failures of the source behind them. -/
theorem Sink.answers_then_read (packets : List Packet) (room : Nat)
    {limit? : Nat → Option Nat} (limit_ne_zero : ∀ position, limit? position ≠ some 0) :
    ∃ written left torn, written ++ left = packets ∧ Cut room written left torn ∧
      (Sink.answers packets { room }).1 =
        written.map answerIfRoom ++ left.map answerIfFull ∧
      (Sink.answers packets { room }).2.taken = Packet.wire written ++ torn ∧
      ∀ more, ∃ failures, failures.length = more ∧
        (∀ answer ∈ failures, ∃ error, answer = .error error ∧ error.IsIo) ∧
        (Source.answers ((Packet.encodable written).length + more)
            { pending := (Sink.answers packets { room }).2.taken, limit?, limit_ne_zero }).1 =
          (Packet.encodable written).map .ok ++ failures := by
  obtain ⟨written, left, torn, whole, cut, answered, taken⟩ := exists_cut packets { room }
  obtain ⟨needed, got, incomplete⟩ := cut.exists_isIncomplete
  exact ⟨written, left, torn, whole, cut, answered, taken,
    Source.answers_of_wire taken.symm incomplete⟩

/-- A message without identifier has no encoding. There is room for the DISCONNECT and
    for three bytes of the SUBACK, which come in pieces of one byte. -/
theorem Sink.answers_then_read_suback :
    let unnamed : Packet := .publish { (default : Publish) with packetId := 0 }
    let disconnect : Packet := .disconnect ⟨0, .empty⟩
    let suback : Packet := .suback ⟨7, .empty, [0, 128]⟩
    let packets := [unnamed, disconnect, suback, unnamed, disconnect]
    let noIdentifier : Error := ⟨[.packet .publish], .zeroPacketId⟩
    let full : Error := ⟨[], .io .sinkFull⟩
    let pieces (_ : Nat) : Option Nat := some 1
    (∀ position, pieces position ≠ some 0) ∧
      (Sink.answers packets { room := 5 }).1 =
        [.error noIdentifier, .ok 2, .error full, .error noIdentifier, .error full] ∧
      (Sink.answers packets { room := 5 }).2.taken = [224, 0, 144, 5, 0] ∧
      ∃ written left torn, written ++ left = packets ∧ Cut 5 written left torn ∧
        (Sink.answers packets { room := 5 }).1 =
          written.map answerIfRoom ++ left.map answerIfFull ∧
        (Sink.answers packets { room := 5 }).2.taken = Packet.wire written ++ torn ∧
        ∀ more, ∃ failures, failures.length = more ∧
          (∀ answer ∈ failures, ∃ error, answer = .error error ∧ error.IsIo) ∧
          (Source.answers ((Packet.encodable written).length + more) {
              pending := (Sink.answers packets { room := 5 }).2.taken
              limit? := pieces
              limit_ne_zero := nofun }).1 =
            (Packet.encodable written).map .ok ++ failures := by
  intro unnamed disconnect suback packets noIdentifier full pieces
  have notEmpty (position : Nat) : pieces position ≠ some 0 := nofun
  exact ⟨notEmpty, by decide +kernel, by decide +kernel, answers_then_read packets 5 notEmpty⟩

end MqttWire
