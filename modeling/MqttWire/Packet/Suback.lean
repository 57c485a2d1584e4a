import MqttWire.FixedHeader
import MqttWire.Properties
import MqttWire.ReasonCode

/-! # SUBACK

The answer to a SUBSCRIBE, with one reason code for each of its filters.
-/

namespace MqttWire

/-- Answer to a request for subscriptions. -/
structure Suback where
  packetId : UInt16
  properties : Properties
  /-- Reason codes in the order of the filters. -/
  reasons : List ReasonCode
  deriving Repr, DecidableEq, Inhabited

namespace Suback

def remainingLength (packet : Suback) : Nat :=
  2 + packet.properties.encodedLength + packet.reasons.length

def header (packet : Suback) : FixedHeader :=
  { type := .suback, flags := .clear, remainingLength := packet.remainingLength }

def body (packet : Suback) : Draft :=
  .concat [
    .uint16 packet.packetId,
    packet.properties.draft.inField .properties,
    .raw packet.reasons]

def draft (packet : Suback) : Draft := packet.header.draft ++ packet.body

/-- Append the packet to a buffer, and count what is announced. -/
def write (packet : Suback) : EStateM Error Bytes Nat := packet.header.writeWith packet.body

def reader : Reader Suback := do
  let packetId ← Reader.uint16.inField .packetId
  let properties ← Properties.reader.inField .properties
  let reasons ← Reader.rest
  return { packetId, properties, reasons }

end Suback

end MqttWire
