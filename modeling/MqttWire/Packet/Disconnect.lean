import MqttWire.FixedHeader
import MqttWire.Properties
import MqttWire.ReasonCode

/-! # DISCONNECT

The last packet of a connection, written in the shortest of three forms: no
body for a normal end without properties, a reason code alone, or a reason code
and properties.
-/

namespace MqttWire

/-- End of a connection. -/
structure Disconnect where
  reasonCode : ReasonCode
  properties : Properties
  deriving Repr, DecidableEq, Inhabited

namespace Disconnect

def remainingLength (packet : Disconnect) : Nat :=
  if packet.properties.isEmpty then
    if packet.reasonCode = 0 then 0 else 1
  else 1 + packet.properties.encodedLength

def header (packet : Disconnect) : FixedHeader :=
  { type := .disconnect, flags := .clear, remainingLength := packet.remainingLength }

def body (packet : Disconnect) : Draft :=
  if packet.properties.isEmpty then
    if packet.reasonCode = 0 then .empty else .byte packet.reasonCode
  else .byte packet.reasonCode ++ packet.properties.draft.inField .properties

def draft (packet : Disconnect) : Draft := packet.header.draft ++ packet.body

/-- Append the packet to a buffer, and count what is announced. -/
def write (packet : Disconnect) : EStateM Error Bytes Nat := packet.header.writeWith packet.body

/-- Read what follows a fixed header with the given remaining length, which
    alone decides on the form. -/
def reader (remainingLength : Nat) : Reader Disconnect :=
  if remainingLength = 0 then
    pure { reasonCode := 0, properties := .empty }
  else do
    let reasonCode ← Reader.byte.inField .reasonCode
    let properties ←
      if 2 ≤ remainingLength then Properties.reader.inField .properties else pure .empty
    return { reasonCode, properties }

end Disconnect

end MqttWire
