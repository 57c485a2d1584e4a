import Mathlib.Tactic.Ring
import MqttWire.Proofs.PropertyTable
import MqttWire.Proofs.Routine
import MqttWire.Stream.Source

/-! # Decoding without traps

The steps of decoding, with every guard where it stands and every unguarded
step as it is taken. Each routine stands before the proof that it runs its
reader, so a guard has to be found in front of the step that needs it: a length
that was ensured, a prefix whose length is known because it was split off, a sum
that is bounded by the groups still to come.
-/

namespace MqttWire

namespace Routine

/-! ## Primitive fields -/

def byte : Routine Bytes UInt8 := do
  ensure 1
  getByte

def uint16 : Routine Bytes UInt16 := do
  ensure 2
  getUInt16

def uint32 : Routine Bytes UInt32 := do
  ensure 4
  getUInt32

def take (count : Nat) : Routine Bytes Bytes := do
  ensure count
  splitTo count

theorem runs_byte : byte.Runs Reader.byte := by
  intro input
  cases input <;> rfl

theorem runs_uint16 : uint16.Runs Reader.uint16 := by
  intro input
  obtain _ | ⟨high, _ | ⟨low, rest⟩⟩ := input <;> rfl

theorem runs_uint32 : uint32.Runs Reader.uint32 := by
  intro input
  obtain _ | ⟨a, _ | ⟨b, _ | ⟨c, _ | ⟨d, rest⟩⟩⟩⟩ := input <;> rfl

theorem runs_take (count : Nat) : (take count).Runs (Reader.take count) := by
  intro input
  simp only [take, Bind.bind, Routine.bind, ensure, perform, splitTo, Reader.take]
  by_cases short : input.length < count
  · simp [short, Nat.min_eq_right (Nat.le_of_lt short)]
  · simp [short, Nat.le_of_not_lt short]

/-- Bytes after a two byte length. A length of zero leads to no step at all. -/
def binary : Routine Bytes Bytes := do
  let length ← uint16
  if length = 0 then return [] else take length.toNat

def text : Routine Bytes String := do
  let raw ← binary
  match Utf8.decode? raw with
  | some text => pure text
  | none => fail (.invalidUtf8 (Utf8.firstFault raw))

theorem runs_binary : binary.Runs Reader.binary := by
  refine runs_uint16.bind fun length => ?_
  split
  · rename_i isZero
    subst isZero
    exact fun _ => rfl
  · exact runs_take _

theorem runs_text : text.Runs Reader.text := by
  refine runs_binary.bind fun raw => ?_
  cases Utf8.decode? raw with
  | some => exact runs_pure _
  | none => exact runs_fail _

/-! ## Variable byte integers -/

/-- The groups from a place on, added to what the groups before it came to. -/
def groups (next : Routine σ UInt8) : Nat → Nat → Nat → Routine σ Nat
  | 0, _, _ => fail .malformedVarInt
  | more + 1, place, value => do
      let byte ← next
      let value ← accumulate value (byte.toNat % 128 * 128 ^ place)
      if byte < 128 then return value else groups next more (place + 1) value

def varInt (next : Routine σ UInt8) : Routine σ Nat := groups next 4 0 0

/-- With as many groups before a place as there may be behind it, the next group
    keeps the sum below the place behind it. -/
theorem accumulate_of_lt {value place more : Nat} (below : value < 128 ^ place)
    (four : place + (more + 1) = 4) (group : Nat) :
    value + group % 128 * 128 ^ place < 128 ^ (place + 1) ∧
      (accumulate value (group % 128 * 128 ^ place) : Routine σ Nat) =
        pure (value + group % 128 * 128 ^ place) := by
  have isGroup : group % 128 < 128 := Nat.mod_lt _ (by decide)
  have isNext : value + group % 128 * 128 ^ place < 128 ^ (place + 1) :=
    calc value + group % 128 * 128 ^ place
      _ < 128 ^ place + group % 128 * 128 ^ place := by omega
      _ = (group % 128 + 1) * 128 ^ place := by ring
      _ ≤ 128 * 128 ^ place := Nat.mul_le_mul_right _ isGroup
      _ = 128 ^ (place + 1) := by ring
  have isLast : 128 ^ (place + 1) ≤ 128 ^ 4 := Nat.pow_le_pow_right (by decide) (by omega)
  refine ⟨isNext, if_pos ?_⟩
  rw [maxVarInt]
  omega

theorem runs_groups {next : Routine σ UInt8} {read : EStateM Error σ UInt8} (runs : next.Runs read)
    {more place value : Nat} (four : place + more = 4) (below : value < 128 ^ place) :
    (groups next more place value).Runs
      ((fun higher => value + 128 ^ place * higher) <$> VarInt.read read more) := by
  -- Both read the lowest group first; the sum already holds the groups that the
  -- reader still has to put in front of what it reads.
  induction more generalizing place value with
  | zero => exact fun _ => rfl
  | succ more ih =>
      rw [VarInt.read, map_bind, groups]
      refine runs.bind fun byte => ?_
      obtain ⟨isNext, added⟩ := accumulate_of_lt (σ := σ) below four byte.toNat
      have isByte := byte.toNat_lt
      rw [added, pure_bind_eq]
      split
      · rename_i isLast
        have group : byte.toNat % 128 = byte.toNat := Nat.mod_eq_of_lt isLast
        rw [group, Nat.mul_comm, map_pure]
        exact runs_pure _
      · rename_i notLast
        have goesOn : 128 ≤ byte.toNat := Nat.le_of_not_lt notLast
        have group : byte.toNat % 128 = byte.toNat - 128 := by omega
        have inFront : (fun higher => value + 128 ^ place * (byte.toNat - 128 + 128 * higher)) =
            fun higher => value + byte.toNat % 128 * 128 ^ place + 128 ^ (place + 1) * higher := by
          funext higher
          rw [group]
          ring
        rw [bind_pure_comp, Functor.map_map, inFront]
        exact ih (by omega) isNext

theorem runs_varInt {next : Routine σ UInt8} {read : EStateM Error σ UInt8}
    (runs : next.Runs read) :
    (varInt next).Runs (VarInt.read read 4) := by
  have fromStart := @runs_groups _ _ _ runs 4 0 0 rfl Nat.one_pos
  simpa [varInt] using fromStart

/-! ## Properties -/

def pair : Routine Bytes TextPair := do
  let key ← text
  let value ← text
  return { key, value }

def datum : DatumKind → Routine Bytes Datum
  | .byte => return .byte (← byte)
  | .uint16 => return .uint16 (← uint16)
  | .uint32 => return .uint32 (← uint32)
  | .varInt => return .varInt (← varInt byte)
  | .text => return .text (← text)
  | .pair => return .pair (← pair)
  | .binary => return .binary (← binary)

def property : Routine Bytes Property := do
  let code ← varInt byte
  match PropertyId.ofCode? code with
  | none => fail (.unknownProperty code)
  | some id =>
      let value ← datum id.kind
      lift (Property.make id value)

/-- A length of zero leads to no further step. Otherwise a block of that length
    is split off, and the loop over properties runs on the block. -/
def properties : Routine Bytes Properties := do
  let length ← varInt byte
  if length = 0 then return .empty
  else
    let block ← take length
    let entries ← call ((whileBytes property).on block)
    return .ofList entries

theorem runs_pair : pair.Runs TextPair.reader :=
  runs_text.bind fun _ => runs_text.bind fun _ => runs_pure _

theorem runs_datum (kind : DatumKind) : (datum kind).Runs (Datum.reader kind) := by
  cases kind with
  | byte => exact runs_byte.map _
  | uint16 => exact runs_uint16.map _
  | uint32 => exact runs_uint32.map _
  | varInt => exact (runs_varInt runs_byte).map _
  | text => exact runs_text.map _
  | pair => exact runs_pair.map _
  | binary => exact runs_binary.map _

theorem runs_property : property.Runs Property.reader := by
  refine (runs_varInt runs_byte).bind fun code => ?_
  cases PropertyId.ofCode? code with
  | none => exact runs_fail _
  | some id => exact (runs_datum _).bind fun value => runs_lift _

theorem runs_properties : properties.Runs Properties.reader := by
  refine (runs_varInt runs_byte).bind fun length => ?_
  split
  · rename_i isZero
    subst isZero
    rw [Reader.take_zero, pure_bind, Reader.all_untilEnd_nil]
    exact runs_pure _
  · refine (runs_take _).bind fun block => ?_
    rw [(runs_whileBytes runs_property).on_all Reader.drains_untilEnd]
    exact (runs_lift _).bind fun entries => runs_pure _

/-! ## Packets -/

def connack : Routine Bytes Connack := do
  let flags ← byte.inField .acknowledgeFlags
  let sessionPresent ← lift (Connack.sessionPresentOfByte flags)
  let reasonCode ← byte.inField .reasonCode
  let properties ← properties.inField .properties
  return { sessionPresent, reasonCode, properties }

def suback : Routine Bytes Suback := do
  let packetId ← uint16.inField .packetId
  let properties ← properties.inField .properties
  let reasons ← takeRest
  return { packetId, properties, reasons }

def disconnect (remainingLength : Nat) : Routine Bytes Disconnect := do
  if remainingLength < 1 then return { reasonCode := 0, properties := .empty }
  else
    let reasonCode ← byte.inField .reasonCode
    let properties ← if 2 ≤ remainingLength then properties.inField .properties else pure .empty
    return { reasonCode, properties }

def subscriptionFilter : Routine Bytes SubscriptionFilter := do
  let filter ← text.inField .topicFilter
  let options ← (do let byte ← byte; lift (SubscriptionOptions.ofByte byte) :
    Routine Bytes SubscriptionOptions).inField .subscriptionOptions
  return { filter, options }

def subscribe : Routine Bytes Subscribe := do
  let packetId ← uint16.inField .packetId
  let properties ← properties.inField .properties
  let filters ← whileBytes subscriptionFilter
  return { packetId, properties, filters }

def packetId : Routine Bytes UInt16 := do
  let packetId ← uint16
  if packetId = 0 then fail .zeroPacketId else pure packetId

def publish (flags : HeaderFlags) : Routine Bytes Publish := do
  let qos ← lift (QoS.ofCode (flags.val / 2 % 4))
  let name ← text.inField .topic
  let topic ← lift (Topic.parse name)
  let packetId ← packetId.inField .packetId
  let properties ← properties.inField .properties
  let payload ← takeRest
  return { dup := flags.val.testBit 3, qos, retain := flags.val.testBit 0, topic, packetId,
           properties, payload }

/-- The prefix is split off as a whole; its name is a slice of it and its level
    the byte behind the name. -/
def protocol : Routine Bytes Unit := do
  let found ← take 7
  let name ← slice found 6
  if name ≠ Connect.nameField then fail (.invalidProtocolName name)
  else
    let level ← index found 6
    if level ≠ protocolLevel then fail (.unsupportedProtocolLevel level) else pure ()

def will (flags : WillFlags) : Routine Bytes Will := do
  let properties ← properties.inField .willProperties
  let topic ← text.inField .willTopic
  let payload ← binary.inField .willPayload
  return { qos := flags.qos, retain := flags.retain, properties, topic, payload }

def announcedWill : Option WillFlags → Routine Bytes (Option Will)
  | some flags => return some (← will flags)
  | none => return none

def announced (present : Bool) (routine : Routine Bytes α) : Routine Bytes (Option α) :=
  if present then return some (← routine) else return none

def connect : Routine Bytes Connect := do
  protocol
  let flagsByte ← byte.inField .connectFlags
  let flags ← lift (ConnectFlags.ofByte flagsByte)
  let keepAlive ← uint16.inField .keepAlive
  let properties ← properties.inField .properties
  let clientId ← text.inField .clientId
  lift (Connect.checkClientId clientId)
  let will ← announcedWill flags.will
  let username ← announced flags.username (text.inField .username)
  let password ← announced flags.password (binary.inField .password)
  return { cleanStart := flags.cleanStart, keepAlive, properties, clientId, will, username,
           password }

theorem runs_connack : connack.Runs Connack.reader := by
  refine (runs_byte.inField _).bind fun flags => (runs_lift _).bind fun sessionPresent => ?_
  refine (runs_byte.inField _).bind fun reasonCode => ?_
  exact (runs_properties.inField _).bind fun properties => runs_pure _

theorem runs_suback : suback.Runs Suback.reader := by
  refine (runs_uint16.inField _).bind fun packetId => ?_
  refine (runs_properties.inField _).bind fun properties => ?_
  exact (runs_perform Reader.rest).bind fun reasons => runs_pure _

theorem runs_disconnect (remainingLength : Nat) :
    (disconnect remainingLength).Runs (Disconnect.reader remainingLength) := by
  unfold disconnect Disconnect.reader
  simp only [Nat.lt_one_iff]
  split
  · exact runs_pure _
  · refine (runs_byte.inField _).bind fun reasonCode => ?_
    split
    · exact (runs_properties.inField _).bind fun properties => runs_pure _
    · exact (runs_pure _).bind fun properties => runs_pure _

theorem runs_subscriptionFilter : subscriptionFilter.Runs SubscriptionFilter.reader := by
  refine (runs_text.inField _).bind fun filter => ?_
  exact ((runs_byte.bind fun byte => runs_lift _).inField _).bind fun options => runs_pure _

theorem runs_subscribe : subscribe.Runs Subscribe.reader := by
  refine (runs_uint16.inField _).bind fun packetId => ?_
  refine (runs_properties.inField _).bind fun properties => ?_
  exact (runs_whileBytes runs_subscriptionFilter).bind fun filters => runs_pure _

theorem runs_packetId : packetId.Runs Publish.packetIdReader := by
  refine runs_uint16.bind fun packetId => ?_
  split
  · exact runs_fail _
  · exact runs_pure _

theorem runs_publish (flags : HeaderFlags) : (publish flags).Runs (Publish.reader flags) := by
  refine (runs_lift _).bind fun qos => (runs_text.inField _).bind fun name => ?_
  refine (runs_lift _).bind fun topic => (runs_packetId.inField _).bind fun packetId => ?_
  refine (runs_properties.inField _).bind fun properties => ?_
  exact (runs_perform Reader.rest).bind fun payload => runs_pure _

theorem runs_protocol : protocol.Runs Connect.protocolReader := by
  refine (runs_take 7).bind_read fun input found rest read => ?_
  obtain ⟨seven, -⟩ := Reader.take_eq_ok.1 read
  have inside : found[6]? = some (found.getD 6 0) := by simp [seven]
  rw [slice, if_pos (by omega), pure_bind_eq, index, inside]
  dsimp only
  split
  · exact runs_fail _
  · rw [pure_bind_eq]
    split
    · exact runs_fail _
    · exact runs_pure _

theorem runs_will (flags : WillFlags) : (will flags).Runs (Connect.willReader flags) := by
  refine (runs_properties.inField _).bind fun properties => ?_
  exact (runs_text.inField _).bind fun topic =>
    (runs_binary.inField _).bind fun payload => runs_pure _

theorem runs_announcedWill (flags? : Option WillFlags) :
    (announcedWill flags?).Runs (Connect.announcedWill flags?) := by
  cases flags? with
  | none => exact runs_pure _
  | some flags => exact (runs_will flags).map _

theorem runs_announced {routine : Routine Bytes α} {reader : Reader α} (runs : routine.Runs reader)
    (present : Bool) : (announced present routine).Runs (Connect.announced present reader) := by
  cases present with
  | false => exact runs_pure _
  | true => exact runs.map _

theorem runs_connect : connect.Runs Connect.reader := by
  refine runs_protocol.bind fun _ => (runs_byte.inField _).bind fun flagsByte => ?_
  refine (runs_lift _).bind fun flags => (runs_uint16.inField _).bind fun keepAlive => ?_
  refine (runs_properties.inField _).bind fun properties => ?_
  refine (runs_text.inField _).bind fun clientId => (runs_lift _).bind fun _ => ?_
  refine (runs_announcedWill _).bind fun will => ?_
  refine (runs_announced (runs_text.inField _) _).bind fun username => ?_
  exact (runs_announced (runs_binary.inField _) _).bind fun password => runs_pure _

/-! ## Frames -/

/-- Check that nothing is left behind what the routine takes. -/
def wholly (routine : Routine Bytes α) : Routine Bytes α := do
  let value ← routine
  ensureConsumed
  return value

def header (next : Routine σ UInt8) : Routine σ FixedHeader := do
  let first ← next
  match PacketType.ofCode? (first.toNat / 16) with
  | none => fail (.invalidPacketType (first.toNat / 16))
  | some type =>
      let remainingLength ← varInt next
      return { type, flags := FixedHeader.flagsOfByte first, remainingLength }

/-- The packet that came of a body, or the error with the packet named. -/
def named (type : PacketType) (wrap : α → Packet) (outcome : Except Trap (Except Error α)) :
    Except Trap (Except Error Packet) :=
  outcome.map fun result => (result.map wrap).mapError (Error.within (.packet type))

/-- Check the flags of a header, and read the body. -/
def packet (header : FixedHeader) (body : Bytes) : Except Trap (Except Error Packet) :=
  match header.validateFlags with
  | .error error => .ok (.error error)
  | .ok () =>
      match header.type with
      | .connect => named .connect .connect ((wholly connect).on body)
      | .connack => named .connack .connack ((wholly connack).on body)
      | .publish => named .publish .publish ((publish header.flags).on body)
      | .subscribe => named .subscribe .subscribe (subscribe.on body)
      | .suback => named .suback .suback (suback.on body)
      | .disconnect =>
          named .disconnect .disconnect ((wholly (disconnect header.remainingLength)).on body)
      | other => .ok (.error (Fault.unsupportedPacketType other))

def received : Routine Bytes Received := do
  let header ← header byte
  let body ← take header.remainingLength
  let packet ← call (packet header body)
  return { header, packet }

/-- Decode from a copy of the buffer, which is given up if that fails. -/
def decode (buffer : Bytes) : Except Trap (Except Error (Packet × Bytes)) :=
  (received buffer).map fun
    | .ok received rest => .ok (received.packet, rest)
    | .error error _ => .error error

/-- Ask the source to fill one byte, and take that byte. -/
def sourceByte : Routine Source UInt8 := do
  let filled ← perform (Source.pull 1)
  if filled.isEmpty then fail (.io .endOfHeader) else index filled 0

def sourcePacket : Routine Source Packet := do
  let header ← header sourceByte
  let body ← perform (Source.gather header.remainingLength [])
  if body.length < header.remainingLength then fail (.io .endOfBody)
  else call (packet header body)

theorem runs_header {next : Routine σ UInt8} {read : EStateM Error σ UInt8}
    (runs : next.Runs read) :
    (header next).Runs (FixedHeader.read read) := by
  refine runs.bind fun first => ?_
  cases PacketType.ofCode? (first.toNat / 16) with
  | none => exact fun _ => rfl
  | some type => exact (runs_varInt runs).bind fun remainingLength => runs_pure _

theorem on_publish (flags : HeaderFlags) (body : Bytes) :
    (publish flags).on body = .ok ((Publish.reader flags).all body) := by
  refine (runs_publish flags).on_all ?_ body
  iterate 5 refine Reader.Drains.after fun _ => ?_
  exact Reader.drains_rest.map _

theorem on_subscribe (body : Bytes) : subscribe.on body = .ok (Subscribe.reader.all body) := by
  refine runs_subscribe.on_all ?_ body
  iterate 2 refine Reader.Drains.after fun _ => ?_
  exact Reader.drains_untilEnd.map _

theorem on_suback (body : Bytes) : suback.on body = .ok (Suback.reader.all body) := by
  refine runs_suback.on_all ?_ body
  iterate 2 refine Reader.Drains.after fun _ => ?_
  exact Reader.drains_rest.map _

theorem packet_eq (header : FixedHeader) (body : Bytes) :
    packet header body = .ok (Packet.ofBody header body) := by
  unfold packet Packet.ofBody
  cases header.validateFlags with
  | error => rfl
  | ok =>
      obtain ⟨type, flags, remainingLength⟩ := header
      cases type <;>
        simp only [Packet.reader?, wholly, runs_connect.on_consumed, runs_connack.on_consumed,
          (runs_disconnect _).on_consumed, on_publish, on_subscribe, on_suback, named,
          Reader.all_map] <;> rfl

theorem runs_received : received.Runs Received.reader := by
  simp only [Received.reader, Frame.reader, bind_assoc, pure_bind]
  refine (runs_header runs_byte).bind fun header => (runs_take _).bind fun body => ?_
  intro input
  simp only [packet_eq, Received.ofFrame]
  cases Packet.ofBody header body <;> rfl

theorem decode_eq (buffer : Bytes) : decode buffer = .ok (Packet.decode buffer) := by
  simp only [decode, runs_received buffer, Packet.decode, Received.ofBuffer]
  cases Received.reader buffer <;> rfl

theorem runs_sourceByte : sourceByte.Runs Source.byte := by
  refine (runs_perform _).bind fun filled => ?_
  cases filled with
  | nil => exact fun _ => rfl
  | cons value others => exact runs_pure _

theorem runs_sourcePacket : sourcePacket.Runs Source.packet := by
  simp only [Source.packet, Source.received, Source.frame, Source.take, bind_assoc]
  refine (runs_header runs_sourceByte).bind fun header => (runs_perform _).bind fun body => ?_
  split
  · exact fun _ => rfl
  · intro source
    simp only [packet_eq, pure_bind, Received.ofFrame]
    cases Packet.ofBody header body <;> rfl

/-- Whatever the bytes, and whatever a header says of the body that comes with it,
    no step of decoding traps and every round of a loop consumes something: all
    routines end with the answers of the readers. -/
theorem decoding_never_traps :
    (∀ buffer, decode buffer = .ok (Packet.decode buffer)) ∧
    (∀ source, sourcePacket source = .ok (Source.packet source)) ∧
    (∀ buffer, header byte buffer = .ok (FixedHeader.reader buffer)) ∧
    (∀ source, header sourceByte source = .ok (FixedHeader.read Source.byte source)) ∧
    (∀ buffer, properties buffer = .ok (Properties.reader buffer)) ∧
    ∀ (header : FixedHeader) (body : Bytes),
      packet header body = .ok (Packet.ofBody header body) ∧
      (wholly connect).on body = .ok (Connect.reader.all body) ∧
      (wholly connack).on body = .ok (Connack.reader.all body) ∧
      (publish header.flags).on body = .ok ((Publish.reader header.flags).all body) ∧
      subscribe.on body = .ok (Subscribe.reader.all body) ∧
      suback.on body = .ok (Suback.reader.all body) ∧
      (wholly (disconnect header.remainingLength)).on body =
        .ok ((Disconnect.reader header.remainingLength).all body) := by
  refine ⟨decode_eq, runs_sourcePacket, runs_header runs_byte, runs_header runs_sourceByte,
    runs_properties, fun header body => ⟨packet_eq header body, ?_⟩⟩
  exact ⟨runs_connect.on_consumed body, runs_connack.on_consumed body,
    on_publish header.flags body, on_subscribe body, on_suback body,
    (runs_disconnect header.remainingLength).on_consumed body⟩

end Routine

end MqttWire
