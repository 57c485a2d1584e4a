import MqttWire.Packet

/-! # Frames

A frame is a fixed header with as many bytes as it announces. Packets are taken
off a buffer one frame at a time: `Packet.decode` gives the first packet and the
rest, and leaves no trace when it fails, so that it can be tried again once more
bytes have arrived.
-/

namespace MqttWire

/-- Fixed header and what follows it. -/
structure Frame where
  header : FixedHeader
  body : Bytes
  deriving Repr, DecidableEq

namespace Frame

def reader : Reader Frame := do
  let header ← FixedHeader.reader
  let body ← Reader.take header.remainingLength
  return { header, body }

end Frame

/-- A packet and the header that it came with. -/
structure Received where
  header : FixedHeader
  packet : Packet
  deriving Repr, DecidableEq

namespace Received

/-- Length of the packet, as counted: its remaining length and the shortest
    header that announces it. -/
def length (received : Received) : Nat :=
  received.header.encodedLength + received.header.remainingLength

def ofFrame (frame : Frame) : Except Error Received := do
  let packet ← Packet.ofBody frame.header frame.body
  return { header := frame.header, packet }

def reader : Reader Received := do
  let frame ← Frame.reader
  Reader.lift (ofFrame frame)

/-- The first packet of a buffer, and the bytes behind it. -/
def ofBuffer (buffer : Bytes) : Except Error (Received × Bytes) :=
  match reader buffer with
  | .ok received rest => .ok (received, rest)
  | .error error _ => .error error

end Received

/-- The first packet of a buffer, and the bytes behind it. -/
def Packet.decode (buffer : Bytes) : Except Error (Packet × Bytes) := do
  let (received, rest) ← Received.ofBuffer buffer
  return (received.packet, rest)

end MqttWire
