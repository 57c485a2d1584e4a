/-! # Protocol constants

The byte type of the whole library and the numbers that version 5.0 of the
protocol fixes.
-/

namespace MqttWire

/-- Bytes of a field, a packet or a buffer, front first. -/
abbrev Bytes := List UInt8

/-- Largest value that four groups of seven bits can carry. -/
def maxVarInt : Nat := 268435455

/-- Largest length that a two byte length can announce. -/
def maxFieldLength : Nat := 65535

/-- Longest client identifier of a CONNECT, in bytes. -/
def maxClientIdLength : Nat := 23

/-- Protocol name carried by a CONNECT. -/
def protocolName : Bytes := [0x4D, 0x51, 0x54, 0x54]

/-- Protocol level of version 5.0. -/
def protocolLevel : UInt8 := 5

/-- Protocol version in words. -/
def protocolVersion : String := "5.0"

/-- TCP number at which servers accept unencrypted connections. -/
def defaultTcpPort : Nat := 1883

end MqttWire
