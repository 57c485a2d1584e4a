import MqttWire.Packet

/-! # Byte sinks

A sink takes a fixed number of bytes. A piece that does not fit fills it up, and
the rest of the piece is lost.
-/

namespace MqttWire

/-- Bytes put away, and room for more. -/
structure Sink where
  /-- Number of bytes that still fit. -/
  room : Nat
  /-- Bytes put away so far. -/
  taken : Bytes := []
  deriving Repr, DecidableEq

namespace Sink

/-- Put a piece away whole. -/
def put (piece : Bytes) : EStateM Error Sink Unit := fun sink =>
  let filled : Sink := {
    room := sink.room - piece.length
    taken := sink.taken ++ piece.take sink.room }
  if piece.length ≤ sink.room then .ok () filled else .error (Fault.io .sinkFull) filled

/-- Encode a packet and put it away. Nothing is put away if it has no encoding. -/
def packet (packet : Packet) : EStateM Error Sink Nat := do
  match packet.encode with
  | .ok bytes =>
      put bytes
      return bytes.length
  | .error error => throw error

end Sink

end MqttWire
