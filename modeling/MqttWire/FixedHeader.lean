import MqttWire.VarInt

/-! # Fixed headers

Every packet begins with its type and four flags in one byte, and the number of
bytes that follow as a variable byte integer.
-/

namespace MqttWire

/-- Type, flags and remaining length of a packet. -/
structure FixedHeader where
  type : PacketType
  flags : HeaderFlags
  /-- Number of bytes that follow the header. -/
  remainingLength : Nat
  deriving Repr, DecidableEq

namespace FixedHeader

/-- Bytes that the header occupies in its shortest form. -/
def encodedLength (header : FixedHeader) : Nat :=
  1 + VarInt.size header.remainingLength

def firstByte (header : FixedHeader) : UInt8 :=
  UInt8.ofNat (header.type.code * 16 + header.flags)

def draft (header : FixedHeader) : Draft :=
  .byte header.firstByte ++ VarInt.draft header.remainingLength

/-- Put the header behind what a buffer holds, and count its bytes as they are put there. -/
def write (header : FixedHeader) : EStateM Error Bytes Nat := do
  modify (· ++ [header.firstByte])
  return 1 + (← VarInt.write header.remainingLength)

/-- The bytes that are counted are those of the draft. -/
theorem write_eq (header : FixedHeader) : header.write = header.draft.write := by
  rw [write, VarInt.write_eq, draft, Draft.write_append]
  rfl

/-- Put a header and what follows it behind what a buffer holds. The count adds the number of
    bytes that the header announces to those that were counted of the header itself. -/
def writeWith (header : FixedHeader) (body : Draft) : EStateM Error Bytes Nat := do
  let headerLength ← header.write
  discard body.write
  return headerLength + header.remainingLength

/-- Check the flags against those that the packet type requires. -/
def validateFlags (header : FixedHeader) : Except Error Unit :=
  match header.type.requiredFlags? with
  | none => .ok ()
  | some expected =>
      if header.flags = expected then .ok ()
      else .error (Fault.invalidFlags header.type header.flags expected)

def flagsOfByte (byte : UInt8) : HeaderFlags :=
  ⟨byte.toNat % 16, Nat.mod_lt _ (by decide)⟩

/-- Read a header from a source of bytes. The type is checked before the
    remaining length is read. -/
def read (next : EStateM Error σ UInt8) : EStateM Error σ FixedHeader := do
  let first ← next
  match PacketType.ofCode? (first.toNat / 16) with
  | none => throw { root := .invalidPacketType (first.toNat / 16) }
  | some type =>
      let remainingLength ← VarInt.read next 4
      return { type, flags := flagsOfByte first, remainingLength }

def reader : Reader FixedHeader := read Reader.byte

end FixedHeader

end MqttWire
