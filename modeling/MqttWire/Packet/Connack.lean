import MqttWire.FixedHeader
import MqttWire.Properties
import MqttWire.ReasonCode

/-! # CONNACK

The answer to a CONNECT.
-/

namespace MqttWire

/-- Answer to a request to open a connection. -/
structure Connack where
  /-- Whether an existing session goes on. -/
  sessionPresent : Bool
  reasonCode : ReasonCode
  properties : Properties
  deriving Repr, DecidableEq, Inhabited

namespace Connack

def remainingLength (packet : Connack) : Nat :=
  2 + packet.properties.encodedLength

def header (packet : Connack) : FixedHeader :=
  { type := .connack, flags := .clear, remainingLength := packet.remainingLength }

def body (packet : Connack) : Draft :=
  .concat [
    .byte (if packet.sessionPresent then 1 else 0),
    .byte packet.reasonCode,
    packet.properties.draft.inField .properties]

def draft (packet : Connack) : Draft := packet.header.draft ++ packet.body

/-- Append the packet to a buffer, and count what is announced. -/
def write (packet : Connack) : EStateM Error Bytes Nat := packet.header.writeWith packet.body

/-- Read the acknowledge flags, of which only the lowest has a meaning. -/
def sessionPresentOfByte (byte : UInt8) : Except Error Bool :=
  if byte = 0 then .ok false
  else if byte = 1 then .ok true
  else .error (Fault.reservedBitsSet .acknowledgeFlags byte)

def reader : Reader Connack := do
  let flags ← Reader.byte.inField .acknowledgeFlags
  let sessionPresent ← Reader.lift (sessionPresentOfByte flags)
  let reasonCode ← Reader.byte.inField .reasonCode
  let properties ← Properties.reader.inField .properties
  return { sessionPresent, reasonCode, properties }

end Connack

end MqttWire
