/-! # Data representations

The seven shapes a value can take on the wire.
-/

namespace MqttWire

/-- Wire shape of a value. -/
inductive DatumKind where
  | byte
  /-- Two byte integer, high byte first. -/
  | uint16
  /-- Four byte integer, high byte first. -/
  | uint32
  | varInt
  /-- UTF-8 text after a two byte length. -/
  | text
  /-- Two texts, key then value. -/
  | pair
  /-- Bytes after a two byte length. -/
  | binary
  deriving Repr, DecidableEq

/-- The protocol's words for a shape. -/
def DatumKind.name : DatumKind → String
  | .byte => "byte"
  | .uint16 => "two byte integer"
  | .uint32 => "four byte integer"
  | .varInt => "variable byte integer"
  | .text => "UTF-8 string"
  | .pair => "UTF-8 string pair"
  | .binary => "binary data"

end MqttWire
