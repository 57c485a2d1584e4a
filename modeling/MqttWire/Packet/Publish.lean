import MqttWire.FixedHeader
import MqttWire.Properties
import MqttWire.QoS
import MqttWire.Topic

/-! # PUBLISH

An application message. Its header flags carry data, and its payload is all
that follows the properties.
-/

namespace MqttWire

/-- Application message. -/
structure Publish where
  /-- Whether this is a repeated attempt. -/
  dup : Bool
  qos : QoS
  /-- Whether the server keeps the message. -/
  retain : Bool
  topic : Topic
  /-- Never zero on the wire. -/
  packetId : UInt16
  properties : Properties
  payload : Bytes
  deriving Repr, DecidableEq, Inhabited

namespace Publish

/-- Header flags: retain in bit 0, QoS in bits 1 and 2, repetition in bit 3. -/
def flags (packet : Publish) : HeaderFlags where
  val := packet.retain.toNat + packet.qos.code * 2 + packet.dup.toNat * 8
  isLt := by
    have retain := Bool.toNat_le packet.retain
    have qos := packet.qos.code_le
    have dup := Bool.toNat_le packet.dup
    omega

def remainingLength (packet : Publish) : Nat :=
  2 + packet.topic.length + 2 + packet.properties.encodedLength + packet.payload.length

def header (packet : Publish) : FixedHeader :=
  { type := .publish, flags := packet.flags, remainingLength := packet.remainingLength }

def body (packet : Publish) : Draft :=
  .concat [
    (Draft.text packet.topic.name).inField .topic,
    .uint16 packet.packetId,
    packet.properties.draft.inField .properties,
    .raw packet.payload]

/-- Stop unless the identifier is not zero and the topic short enough. -/
def checks (packet : Publish) : Draft :=
  .require (packet.packetId != 0) .zeroPacketId ++
    .require (packet.topic.length ≤ maxFieldLength) (.tooLong .topic packet.topic.length)

def draft (packet : Publish) : Draft := packet.checks ++ packet.header.draft ++ packet.body

/-- Append the packet to a buffer, and count what is announced. -/
def write (packet : Publish) : EStateM Error Bytes Nat := do
  discard packet.checks.write
  packet.header.writeWith packet.body

/-- Read a packet identifier, which must not be zero. -/
def packetIdReader : Reader UInt16 := do
  let packetId ← Reader.uint16
  if packetId = 0 then Reader.fail .zeroPacketId else pure packetId

/-- Read what follows a fixed header with the given flags. -/
def reader (flags : HeaderFlags) : Reader Publish := do
  let qos ← Reader.lift (QoS.ofCode (flags.val / 2 % 4))
  let name ← Reader.text.inField .topic
  let topic ← Reader.lift (Topic.parse name)
  let packetId ← packetIdReader.inField .packetId
  let properties ← Properties.reader.inField .properties
  let payload ← Reader.rest
  return { dup := flags.val.testBit 3, qos, retain := flags.val.testBit 0, topic, packetId,
           properties, payload }

end Publish

end MqttWire
