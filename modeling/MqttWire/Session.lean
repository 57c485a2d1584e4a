import MqttWire.Counters

/-! # Sessions

A receive buffer and the counters of what went through it.
-/

namespace MqttWire

/-- Receive buffer and counters. -/
structure Session where
  /-- Bytes that have arrived and were not yet taken. -/
  buffer : Bytes := []
  counters : Counters := {}
  deriving Repr, DecidableEq

namespace Session

/-- Bytes arrive. -/
def feed (bytes : Bytes) (session : Session) : Session :=
  { session with buffer := session.buffer ++ bytes }

/-- Drop up to `count` bytes from the front. -/
def skip (count : Nat) (session : Session) : Session :=
  { session with buffer := session.buffer.drop count }

/-- Encode a packet behind the bytes that have arrived. -/
def encode (packet : Packet) (session : Session) : Except Error Bytes × Session :=
  match packet.encodeCounted session.counters with
  | (.ok bytes, counters) => (.ok bytes, { session with counters }.feed bytes)
  | (.error error, counters) => (.error error, { session with counters })

/-- Take a packet from the front. The buffer stays as it is if that fails. -/
def decode (session : Session) : Except Error Packet × Session :=
  match Packet.decodeCounted session.buffer session.counters with
  | (.ok (packet, buffer), counters) => (.ok packet, { buffer, counters })
  | (.error error, counters) => (.error error, { session with counters })

end Session

end MqttWire
