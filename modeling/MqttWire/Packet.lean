import MqttWire.Packet.Connack
import MqttWire.Packet.Connect
import MqttWire.Packet.Disconnect
import MqttWire.Packet.Publish
import MqttWire.Packet.Suback
import MqttWire.Packet.Subscribe

/-! # Control packets

The six supported packets as one type, their wire form, and the way back from
bytes. `Packet.encode` gives all bytes of a packet; `Packet.ofBody` reads a
packet whose header has been read.
-/

namespace MqttWire

/-- Supported control packet. -/
inductive Packet where
  | connect (packet : Connect)
  | connack (packet : Connack)
  | publish (packet : Publish)
  | subscribe (packet : Subscribe)
  | suback (packet : Suback)
  | disconnect (packet : Disconnect)
  deriving Repr, DecidableEq

namespace Packet

def type : Packet → PacketType
  | .connect _ => .connect
  | .connack _ => .connack
  | .publish _ => .publish
  | .subscribe _ => .subscribe
  | .suback _ => .suback
  | .disconnect _ => .disconnect

/-- Part whose allowances apply to the packet's properties. -/
def part : Packet → PacketPart
  | .connect _ => .connect
  | .connack _ => .connack
  | .publish _ => .publish
  | .subscribe _ => .subscribe
  | .suback _ => .suback
  | .disconnect _ => .disconnect

def properties : Packet → Properties
  | .connect packet => packet.properties
  | .connack packet => packet.properties
  | .publish packet => packet.properties
  | .subscribe packet => packet.properties
  | .suback packet => packet.properties
  | .disconnect packet => packet.properties

def remainingLength : Packet → Nat
  | .connect packet => packet.remainingLength
  | .connack packet => packet.remainingLength
  | .publish packet => packet.remainingLength
  | .subscribe packet => packet.remainingLength
  | .suback packet => packet.remainingLength
  | .disconnect packet => packet.remainingLength

/-! ## Writing -/

/-- All that the packet puts out; errors name the field at work. -/
def bareDraft : Packet → Draft
  | .connect packet => packet.draft
  | .connack packet => packet.draft
  | .publish packet => packet.draft
  | .subscribe packet => packet.draft
  | .suback packet => packet.draft
  | .disconnect packet => packet.draft

/-- All that the packet puts out; errors name the packet and the field at work. -/
def draft (packet : Packet) : Draft :=
  packet.bareDraft.within (.packet packet.type)

/-- Append the packet to a buffer and count its bytes; errors name the field at work. What came
    before an error stays in the buffer. -/
def bareWrite : Packet → EStateM Error Bytes Nat
  | .connect packet => packet.write
  | .connack packet => packet.write
  | .publish packet => packet.write
  | .subscribe packet => packet.write
  | .suback packet => packet.write
  | .disconnect packet => packet.write

/-- Append the packet to a buffer and count its bytes; errors name the packet and the field at
    work. -/
def write (packet : Packet) : EStateM Error Bytes Nat :=
  packet.bareWrite.adaptExcept (Error.within (.packet packet.type))

/-- The bytes that the packet puts into an empty buffer. -/
def encode (packet : Packet) : Except Error Bytes :=
  match packet.write [] with
  | .ok _ bytes => .ok bytes
  | .error error _ => .error error

/-! ## Reading -/

/-- Reader of what follows a header, if the packet type is supported. -/
def reader? (header : FixedHeader) : Option (Reader Packet) :=
  match header.type with
  | .connect => some (.connect <$> Connect.reader)
  | .connack => some (.connack <$> Connack.reader)
  | .publish => some (.publish <$> Publish.reader header.flags)
  | .subscribe => some (.subscribe <$> Subscribe.reader)
  | .suback => some (.suback <$> Suback.reader)
  | .disconnect => some (.disconnect <$> Disconnect.reader header.remainingLength)
  | _ => none

/-- Packet with the given header and body, whatever the flags the header should
    have. The body must be used up; errors name the field at work. -/
def ofBareBody (header : FixedHeader) (body : Bytes) : Except Error Packet :=
  match reader? header with
  | some reader => reader.all body
  | none => .error (Fault.unsupportedPacketType header.type)

/-- Packet with the given header and body. The flags are checked first; the
    errors of a supported packet's body name the packet and the field at work. -/
def ofBody (header : FixedHeader) (body : Bytes) : Except Error Packet := do
  header.validateFlags
  match reader? header with
  | some reader => (reader.all body).mapError (Error.within (.packet header.type))
  | none => .error (Fault.unsupportedPacketType header.type)

end Packet

end MqttWire
