import MqttWire.Stream.Sink
import MqttWire.Stream.Source

/-! # Counters

What went by in each direction: packets, bytes and errors. Counters are words of
64 bits that wrap around. The counted operations give the answers of the plain
ones and record what happened.
-/

namespace MqttWire

/-- What was encoded and decoded so far. -/
structure Counters where
  encodedPackets : UInt64 := 0
  decodedPackets : UInt64 := 0
  encodedBytes : UInt64 := 0
  decodedBytes : UInt64 := 0
  encodeErrors : UInt64 := 0
  decodeErrors : UInt64 := 0
  connect : UInt64 := 0
  connack : UInt64 := 0
  publish : UInt64 := 0
  subscribe : UInt64 := 0
  suback : UInt64 := 0
  disconnect : UInt64 := 0
  deriving Repr, DecidableEq

namespace Counters

def addEncoded (length : Nat) (counters : Counters) : Counters :=
  { counters with
    encodedPackets := counters.encodedPackets + 1
    encodedBytes := counters.encodedBytes + UInt64.ofNat length }

def addType (packet : Packet) (counters : Counters) : Counters :=
  match packet with
  | .connect _ => { counters with connect := counters.connect + 1 }
  | .connack _ => { counters with connack := counters.connack + 1 }
  | .publish _ => { counters with publish := counters.publish + 1 }
  | .subscribe _ => { counters with subscribe := counters.subscribe + 1 }
  | .suback _ => { counters with suback := counters.suback + 1 }
  | .disconnect _ => { counters with disconnect := counters.disconnect + 1 }

def addDecoded (received : Received) (counters : Counters) : Counters :=
  let counted := counters.addType received.packet
  { counted with
    decodedPackets := counted.decodedPackets + 1
    decodedBytes := counted.decodedBytes + UInt64.ofNat received.length }

def addEncodeError (counters : Counters) : Counters :=
  { counters with encodeErrors := counters.encodeErrors + 1 }

def addDecodeError (counters : Counters) : Counters :=
  { counters with decodeErrors := counters.decodeErrors + 1 }

/-- Total per item, rounded down, if there are items. -/
def average? (total count : UInt64) : Option UInt64 :=
  if count = 0 then none else some (total / count)

def averageEncoded? (counters : Counters) : Option UInt64 :=
  average? counters.encodedBytes counters.encodedPackets

def averageDecoded? (counters : Counters) : Option UInt64 :=
  average? counters.decodedBytes counters.decodedPackets

end Counters

/-! ## Counted operations -/

/-- Encode a packet and count it, with the number of bytes that its writer returns. -/
def Packet.encodeCounted (packet : Packet) : StateM Counters (Except Error Bytes) := do
  match packet.write [] with
  | .ok count bytes =>
      modify (·.addEncoded count)
      return .ok bytes
  | .error error _ =>
      modify (·.addEncodeError)
      return .error error

/-- Take a packet off a buffer and count it. -/
def Packet.decodeCounted (buffer : Bytes) :
    StateM Counters (Except Error (Packet × Bytes)) := do
  match Received.ofBuffer buffer with
  | .ok (received, rest) =>
      modify (·.addDecoded received)
      return .ok (received.packet, rest)
  | .error error =>
      modify (·.addDecodeError)
      return .error error

/-- Read a packet from a source and count it. -/
def Source.packetCounted (source : Source) :
    StateM Counters (Except Error Packet × Source) := do
  match Source.received source with
  | .ok received source =>
      modify (·.addDecoded received)
      return (.ok received.packet, source)
  | .error error source =>
      modify (·.addDecodeError)
      return (.error error, source)

/-- Put a packet away and count it. A packet that has an encoding counts even if
    the sink fails. -/
def Sink.packetCounted (packet : Packet) (sink : Sink) :
    StateM Counters (Except Error Nat × Sink) := do
  match ← packet.encodeCounted with
  | .ok bytes =>
      match Sink.put bytes sink with
      | .ok () sink => return (.ok bytes.length, sink)
      | .error error sink => return (.error error, sink)
  | .error error => return (.error error, sink)

end MqttWire
