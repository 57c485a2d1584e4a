import MqttWire.Datum.Kind
import MqttWire.VarInt

/-! # Data values

A value in one of the seven data representations, with the number of bytes it
occupies, its writer and its reader. Nothing on the wire names the
representation: the reader is told which one comes next.
-/

namespace MqttWire

/-- Two texts that belong together. -/
structure TextPair where
  key : String
  value : String
  deriving Repr, DecidableEq

/-- Bytes that a text occupies with its length. -/
def textSize (text : String) : Nat := 2 + text.utf8ByteSize

/-- Bytes that binary data occupies with its length. -/
def binarySize (content : Bytes) : Nat := 2 + content.length

namespace TextPair

def size (pair : TextPair) : Nat := textSize pair.key + textSize pair.value

def draft (pair : TextPair) : Draft := .text pair.key ++ .text pair.value

def reader : Reader TextPair := do
  let key ← Reader.text
  let value ← Reader.text
  return { key, value }

end TextPair

/-- A value in one of the data representations. -/
inductive Datum where
  | byte (value : UInt8)
  | uint16 (value : UInt16)
  | uint32 (value : UInt32)
  /-- A number for a variable byte integer, which may be too large for one. -/
  | varInt (value : Nat)
  | text (value : String)
  | pair (value : TextPair)
  | binary (value : Bytes)
  deriving Repr, DecidableEq

namespace Datum

def kind : Datum → DatumKind
  | .byte _ => .byte
  | .uint16 _ => .uint16
  | .uint32 _ => .uint32
  | .varInt _ => .varInt
  | .text _ => .text
  | .pair _ => .pair
  | .binary _ => .binary

def size : Datum → Nat
  | .byte _ => 1
  | .uint16 _ => 2
  | .uint32 _ => 4
  | .varInt value => VarInt.size value
  | .text value => textSize value
  | .pair value => value.size
  | .binary value => binarySize value

def draft : Datum → Draft
  | .byte value => .byte value
  | .uint16 value => .uint16 value
  | .uint32 value => .uint32 value
  | .varInt value => VarInt.draft value
  | .text value => .text value
  | .pair value => value.draft
  | .binary value => .binary value

/-- Read a value in the given representation. -/
def reader : DatumKind → Reader Datum
  | .byte => .byte <$> Reader.byte
  | .uint16 => .uint16 <$> Reader.uint16
  | .uint32 => .uint32 <$> Reader.uint32
  | .varInt => .varInt <$> VarInt.reader
  | .text => .text <$> Reader.text
  | .pair => .pair <$> TextPair.reader
  | .binary => .binary <$> Reader.binary

end Datum

end MqttWire
