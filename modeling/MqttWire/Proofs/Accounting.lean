import MqttWire.Proofs.Counting
import MqttWire.Proofs.RoundTrip

/-! # What counters account for

The plain operations say what each call comes to: bytes or an error for a packet
that is to be encoded, a packet or an error where one is to be decoded. Over any
run the counters grow by what these answers add up to, so that no call is missed
and none is counted twice.
-/

namespace MqttWire

/-- A call that concerns a packet. -/
inductive Operation where
  | encode (packet : Packet)
  | put (packet : Packet) (sink : Sink)
  | decode (buffer : Bytes)
  | read (source : Source)
  /-- Append a packet to a buffer. -/
  | append (packet : Packet) (buffer : Bytes)
  /-- Read the body that goes with a header. -/
  | readBody (header : FixedHeader) (body : Bytes)

namespace Operation

/-- What a call gives back. -/
inductive Answer where
  | encoded (outcome : Except Error Bytes)
  | stored (outcome : Except Error Nat × Sink)
  | decoded (outcome : Except Error (Packet × Bytes))
  | received (outcome : Except Error Packet × Source)
  | appended (outcome : EStateM.Result Error Bytes Nat)
  | body (outcome : Except Error Packet)

/-- Carry out a call. To append a packet and to read a body are the two operations
    that do not come with counters. -/
def run : Operation → StateM Counters Answer
  | .encode packet => .encoded <$> packet.encodeCounted
  | .put packet sink => .stored <$> sink.packetCounted packet
  | .decode buffer => .decoded <$> Packet.decodeCounted buffer
  | .read source => .received <$> source.packetCounted
  | .append packet buffer => return .appended (packet.write buffer)
  | .readBody header body => return .body (Packet.ofBody header body)

/-- The counters after a call. -/
def count (operation : Operation) (counters : Counters) : Counters := (operation.run counters).2

/-- The counters after calls. -/
def countAll (operations : List Operation) (counters : Counters) : Counters :=
  operations.foldl (fun before operation => operation.count before) counters

/-- What the plain operations say that a call gives back. -/
def answer : Operation → Answer
  | .encode packet => .encoded packet.encode
  | .put packet sink => .stored (sink.answer packet)
  | .decode buffer => .decoded (Packet.decode buffer)
  | .read source => .received source.answer
  | .append packet buffer => .appended (packet.write buffer)
  | .readBody header body => .body (Packet.ofBody header body)

/-- What the packet of a call is encoded to, whatever becomes of the bytes. -/
def encoding? : Operation → Option (Except Error Bytes)
  | .encode packet => some packet.encode
  | .put packet _ => some packet.encode
  | _ => none

/-- The packet that a call comes to. -/
def decoding? : Operation → Option (Except Error Packet)
  | .decode buffer => some ((Packet.decode buffer).map Prod.fst)
  | .read source => some source.answer.1
  | _ => none

/-- What the calls come to that are to encode a packet, one item for each. -/
def encodings (operations : List Operation) : List (Except Error Bytes) :=
  operations.filterMap encoding?

/-- What the calls come to that are to decode a packet, one item for each. -/
def decodings (operations : List Operation) : List (Except Error Packet) :=
  operations.filterMap decoding?

def successes (answers : List (Except Error α)) : List α := answers.filterMap Except.toOption

/-- Number of answers that are errors. -/
def failures (answers : List (Except Error α)) : Nat := answers.countP fun answer => !answer.isOk

section Answers

variable (answers : List (Except Error α))

@[simp] theorem successes_nil : successes ([] : List (Except Error α)) = [] := rfl

@[simp] theorem successes_ok (value : α) :
    successes (.ok value :: answers) = value :: successes answers := rfl

@[simp] theorem successes_error (error : Error) :
    successes (.error error :: answers) = successes answers := rfl

@[simp] theorem failures_nil : failures ([] : List (Except Error α)) = 0 := rfl

@[simp] theorem failures_ok (value : α) : failures (.ok value :: answers) = failures answers := rfl

@[simp] theorem failures_error (error : Error) :
    failures (.error error :: answers) = failures answers + 1 := by
  simp [failures, Except.isOk, Except.toBool]

theorem length_successes_add_failures :
    (successes answers).length + failures answers = answers.length := by
  induction answers with
  | nil => rfl
  | cons answer answers ih => cases answer <;> simp <;> omega

end Answers

end Operation

/-- Counter of the packets of a type, of which there is one for each supported type. -/
def Counters.ofType (counters : Counters) : PacketType → UInt64
  | .connect => counters.connect
  | .connack => counters.connack
  | .publish => counters.publish
  | .subscribe => counters.subscribe
  | .suback => counters.suback
  | .disconnect => counters.disconnect
  | _ => 0

/-- What counters have grown by, up to a multiple of 2⁶⁴. -/
def Counters.since (after before : Counters) : Counters where
  encodedPackets := after.encodedPackets - before.encodedPackets
  decodedPackets := after.decodedPackets - before.decodedPackets
  encodedBytes := after.encodedBytes - before.encodedBytes
  decodedBytes := after.decodedBytes - before.decodedBytes
  encodeErrors := after.encodeErrors - before.encodeErrors
  decodeErrors := after.decodeErrors - before.decodeErrors
  connect := after.connect - before.connect
  connack := after.connack - before.connack
  publish := after.publish - before.publish
  subscribe := after.subscribe - before.subscribe
  suback := after.suback - before.suback
  disconnect := after.disconnect - before.disconnect

namespace Counters

/-- Count what encoding a packet comes to. -/
def addEncoding : Except Error Bytes → Counters → Counters
  | .ok bytes => addEncoded bytes.length
  | .error _ => addEncodeError

/-- Count what decoding a packet comes to. -/
def addDecoding : Except Error Received → Counters → Counters
  | .ok received => addDecoded received
  | .error _ => addDecodeError

variable (counters : Counters) (type : PacketType)

@[simp] theorem ofType_addEncoded (length : Nat) :
    (counters.addEncoded length).ofType type = counters.ofType type := by
  cases type <;> rfl

@[simp] theorem ofType_addEncodeError :
    counters.addEncodeError.ofType type = counters.ofType type := by
  cases type <;> rfl

@[simp] theorem ofType_addDecodeError :
    counters.addDecodeError.ofType type = counters.ofType type := by
  cases type <;> rfl

theorem ofType_since (before : Counters) :
    (counters.since before).ofType type = counters.ofType type - before.ofType type := by
  cases type <;> simp [ofType, since]

theorem ofType_addDecoded (received : Received) :
    (counters.addDecoded received).ofType type =
      counters.ofType type + if received.packet.type = type then 1 else 0 := by
  obtain ⟨header, packet⟩ := received
  cases packet <;> cases type <;> simp [addDecoded, addType, ofType, Packet.type]

end Counters

namespace Operation

/-- The counters before and after some calls differ by what the calls come to. -/
structure Accounts (operations : List Operation) (before after : Counters) : Prop where
  encodedPackets : after.encodedPackets =
    before.encodedPackets + .ofNat (successes (encodings operations)).length
  encodedBytes : after.encodedBytes =
    before.encodedBytes + .ofNat (successes (encodings operations)).flatten.length
  encodeErrors : after.encodeErrors =
    before.encodeErrors + .ofNat (failures (encodings operations))
  decodedPackets : after.decodedPackets =
    before.decodedPackets + .ofNat (successes (decodings operations)).length
  decodeErrors : after.decodeErrors =
    before.decodeErrors + .ofNat (failures (decodings operations))
  ofType : ∀ type, after.ofType type =
    before.ofType type + .ofNat ((successes (decodings operations)).countP (·.type = type))

theorem accounts_nil (counters : Counters) : Accounts [] counters counters := by
  constructor <;> simp [encodings, decodings, successes, failures]

theorem Accounts.trans {first second : List Operation} {before between after : Counters}
    (earlier : Accounts first before between) (later : Accounts second between after) :
    Accounts (first ++ second) before after := by
  constructor <;>
    simp [encodings, decodings, successes, failures, UInt64.ofNat_add, ← UInt64.add_assoc,
      later.encodedPackets, later.encodedBytes, later.encodeErrors, later.decodedPackets,
      later.decodeErrors, later.ofType, earlier.encodedPackets, earlier.encodedBytes,
      earlier.encodeErrors, earlier.decodedPackets, earlier.decodeErrors, earlier.ofType]

/-! ## One call -/

variable {operation : Operation}

/-- One answer to a call that is to encode a packet is counted once. -/
theorem accounts_of_encoding {answer : Except Error Bytes}
    (encodes : operation.encoding? = some answer) (noDecoding : operation.decoding? = none)
    (counters : Counters) :
    Accounts [operation] counters (counters.addEncoding answer) := by
  cases answer <;> constructor <;>
    simp [encodings, decodings, encodes, noDecoding, Counters.addEncoding] <;> rfl

/-- One answer to a call that is to decode a packet is counted once. -/
theorem accounts_of_decoding {answer : Except Error Received}
    (noEncoding : operation.encoding? = none)
    (decodes : operation.decoding? = some (answer.map Received.packet)) (counters : Counters) :
    Accounts [operation] counters (counters.addDecoding answer) := by
  cases answer with
  | error error =>
      constructor <;>
        simp [encodings, decodings, noEncoding, decodes, Except.map, Counters.addDecoding] <;> rfl
  | ok received =>
      obtain ⟨header, packet⟩ := received
      constructor
      case ofType =>
        intro type
        by_cases same : packet.type = type <;>
          simp [decodings, decodes, Except.map, Counters.addDecoding, Counters.ofType_addDecoded,
            same]
      -- The packet's own counter is the only one that depends on its type.
      all_goals
        cases packet <;>
          simp [encodings, decodings, noEncoding, decodes, Except.map, Counters.addDecoding,
            Counters.addDecoded, Counters.addType]

theorem accounts_of_neither (noEncoding : operation.encoding? = none)
    (noDecoding : operation.decoding? = none) (counters : Counters) :
    Accounts [operation] counters counters := by
  constructor <;> simp [encodings, decodings, noEncoding, noDecoding]

theorem fst_encodeCounted (packet : Packet) (counters : Counters) :
    (packet.encodeCounted counters).1 = packet.encode := by
  cases encoded : packet.encode with
  | error error => rw [Packet.encodeCounted_of_error encoded]
  | ok bytes => rw [Packet.encodeCounted_of_ok encoded]

/-- The answers do not depend on the counters. -/
theorem fst_run (operation : Operation) (counters : Counters) :
    (operation.run counters).1 = operation.answer := by
  cases operation with
  | encode packet => exact congrArg Answer.encoded (fst_encodeCounted packet counters)
  | put packet sink => exact congrArg Answer.stored (Sink.fst_packetCounted packet sink counters)
  | decode buffer => exact congrArg Answer.decoded (Packet.fst_decodeCounted buffer counters)
  | read source => exact congrArg Answer.received (Source.fst_packetCounted source counters)
  | append => rfl
  | readBody => rfl

theorem count_encode (packet : Packet) (counters : Counters) :
    (encode packet).count counters = counters.addEncoding packet.encode := by
  change (packet.encodeCounted counters).2 = _
  cases encoded : packet.encode with
  | error error =>
      rw [Packet.encodeCounted_of_error encoded]
      rfl
  | ok bytes =>
      rw [Packet.encodeCounted_of_ok encoded]
      rfl

/-- Whatever the sink does with the bytes, to put a packet away counts as to encode it. -/
theorem count_put (packet : Packet) (sink : Sink) (counters : Counters) :
    (put packet sink).count counters = (encode packet).count counters := by
  change (sink.packetCounted packet counters).2 = (packet.encodeCounted counters).2
  simp only [Sink.packetCounted, bind, StateT.bind]
  rcases packet.encodeCounted counters with ⟨_ | bytes, after⟩
  · rfl
  · cases stored : Sink.put bytes sink <;> simp only [stored] <;> rfl

theorem count_decode (buffer : Bytes) (counters : Counters) :
    (decode buffer).count counters =
      counters.addDecoding ((Received.ofBuffer buffer).map Prod.fst) := by
  change (Packet.decodeCounted buffer counters).2 = _
  simp only [Packet.decodeCounted]
  cases Received.ofBuffer buffer <;> rfl

/-- What a source comes to, with the header of the packet. -/
def ofSource (source : Source) : Except Error Received :=
  match Source.received source with
  | .ok received _ => .ok received
  | .error error _ => .error error

theorem count_read (source : Source) (counters : Counters) :
    (read source).count counters = counters.addDecoding (ofSource source) := by
  change (source.packetCounted counters).2 = _
  simp only [Source.packetCounted, ofSource]
  cases Source.received source <;> rfl

/-- What one call does to the counters is what it comes to. -/
theorem accounts_count (operation : Operation) (counters : Counters) :
    Accounts [operation] counters (operation.count counters) := by
  cases operation with
  | encode packet =>
      rw [count_encode]
      exact accounts_of_encoding rfl rfl counters
  | put packet sink =>
      rw [count_put, count_encode]
      exact accounts_of_encoding rfl rfl counters
  | decode buffer =>
      rw [count_decode]
      refine accounts_of_decoding rfl ?_ counters
      simp only [decoding?, Packet.decode]
      cases Received.ofBuffer buffer <;> rfl
  | read source =>
      rw [count_read]
      refine accounts_of_decoding rfl ?_ counters
      simp only [decoding?, Source.answer, Source.packet, ofSource, bind, EStateM.bind]
      cases Source.received source <;> rfl
  | append => exact accounts_of_neither rfl rfl counters
  | readBody => exact accounts_of_neither rfl rfl counters

/-! ## Runs -/

theorem accounts_countAll (operations : List Operation) (counters : Counters) :
    Accounts operations counters (countAll operations counters) := by
  induction operations generalizing counters with
  | nil => exact accounts_nil counters
  | cons operation operations ih =>
      exact (accounts_count operation counters).trans (ih (operation.count counters))

/-- The counters of the six types cover every packet. -/
theorem sum_countP_type (packets : List Packet) :
    packets.countP (·.type = .connect) + packets.countP (·.type = .connack) +
        packets.countP (·.type = .publish) + packets.countP (·.type = .subscribe) +
        packets.countP (·.type = .suback) + packets.countP (·.type = .disconnect) =
      packets.length := by
  induction packets with
  | nil => rfl
  | cons packet packets ih => cases packet <;> simp [Packet.type] at ih ⊢ <;> omega

/-- Over any run, the counters have grown by exactly what the calls come to, and the
    calls give back what the plain operations do. A packet that has an encoding
    counts as encoded whatever the sink does with it. -/
theorem counters_account_for_calls (operations : List Operation) (before : Counters) :
    let growth := (countAll operations before).since before
    (growth.encodedPackets = .ofNat (successes (encodings operations)).length ∧
      growth.encodeErrors = .ofNat (failures (encodings operations)) ∧
      growth.encodedPackets + growth.encodeErrors = .ofNat (encodings operations).length ∧
      growth.encodedBytes = .ofNat (successes (encodings operations)).flatten.length) ∧
    (growth.decodedPackets = .ofNat (successes (decodings operations)).length ∧
      growth.decodeErrors = .ofNat (failures (decodings operations)) ∧
      growth.decodedPackets + growth.decodeErrors = .ofNat (decodings operations).length ∧
      (∀ type, growth.ofType type =
        .ofNat ((successes (decodings operations)).countP (·.type = type))) ∧
      growth.connect + growth.connack + growth.publish + growth.subscribe + growth.suback +
        growth.disconnect = growth.decodedPackets) ∧
    (∀ packet sink counters bytes, packet.encode = .ok bytes →
      (put packet sink).count counters = counters.addEncoded bytes.length) ∧
    (∀ packet buffer counters, (append packet buffer).count counters = counters) ∧
    (∀ header body counters, (readBody header body).count counters = counters) ∧
    ∀ (operation : Operation) counters, (operation.run counters).1 = operation.answer := by
  intro growth
  have accounts := accounts_countAll operations before
  have difference {old new more : UInt64} (grown : new = old + more) : new - old = more := by
    rw [grown, UInt64.add_comm, UInt64.add_sub_cancel]
  have encodedPackets : growth.encodedPackets = _ := difference accounts.encodedPackets
  have encodeErrors : growth.encodeErrors = _ := difference accounts.encodeErrors
  have decodedPackets : growth.decodedPackets = _ := difference accounts.decodedPackets
  have decodeErrors : growth.decodeErrors = _ := difference accounts.decodeErrors
  have ofType (type : PacketType) : growth.ofType type =
      .ofNat ((successes (decodings operations)).countP (·.type = type)) := by
    rw [Counters.ofType_since]
    exact difference (accounts.ofType type)
  refine ⟨⟨encodedPackets, encodeErrors, ?_, difference accounts.encodedBytes⟩,
    ⟨decodedPackets, decodeErrors, ?_, ofType, ?_⟩,
    ?_, fun _ _ _ => rfl, fun _ _ _ => rfl, fst_run⟩
  · rw [encodedPackets, encodeErrors, ← UInt64.ofNat_add, length_successes_add_failures]
  · rw [decodedPackets, decodeErrors, ← UInt64.ofNat_add, length_successes_add_failures]
  · change growth.ofType .connect + growth.ofType .connack + growth.ofType .publish +
      growth.ofType .subscribe + growth.ofType .suback + growth.ofType .disconnect = _
    rw [decodedPackets, ← sum_countP_type]
    simp only [ofType, UInt64.ofNat_add]
  · intro packet sink counters bytes encoded
    rw [count_put, count_encode, encoded]
    rfl

end Operation

end MqttWire
