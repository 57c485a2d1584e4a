import MqttWire.Frame

/-! # Byte sources

A source hands out bytes in pieces of any sizes and may fail when it is asked at
a certain position. Packets are read from it without ever asking beyond their
last byte.
-/

namespace MqttWire

/-- Bytes that arrive in pieces. -/
structure Source where
  /-- Bytes not yet handed out. -/
  pending : Bytes
  /-- Number of bytes handed out. -/
  position : Nat := 0
  /-- Most bytes in the piece that begins at a position, if there is a limit. No two pieces begin
      at the same position, so the limits describe every way of cutting up the bytes. -/
  limit? : Nat → Option Nat := fun _ => none
  /-- No piece has to be empty. -/
  limit_ne_zero : ∀ position, limit? position ≠ some 0 := by rintro _ ⟨⟩
  /-- Position at which the source fails, if there is one. -/
  failAt? : Option Nat := none

namespace Source

/-- Most bytes that the next piece can have, if at most `wanted` are asked for. -/
def pieceLimit (source : Source) (wanted : Nat) : Nat :=
  min ((source.limit? source.position).elim wanted (min wanted))
    (source.failAt?.elim wanted (· - source.position))

/-- Ask for a piece of at most `wanted` bytes. It is empty at the end of the
    source. -/
def pull (wanted : Nat) : EStateM Error Source Bytes := fun source =>
  if source.failAt? = some source.position then
    .error (Fault.io .sourceFailed) source
  else
    let piece := source.pending.take (source.pieceLimit wanted)
    .ok piece {
      source with
      pending := source.pending.drop (source.pieceLimit wanted)
      position := source.position + piece.length }

/-- The next byte, which must exist. -/
def byte : EStateM Error Source UInt8 := do
  match ← pull 1 with
  | value :: _ => return value
  | [] => throw { root := .io .endOfHeader }

/-- Gather pieces until there are `wanted` bytes in them or the source ends,
    behind the pieces gathered before, the latest of which comes first. -/
def gather (wanted : Nat) (pieces : List Bytes) : EStateM Error Source Bytes := fun source =>
  if wanted = 0 then .ok pieces.reverse.flatten source
  else
    match pull wanted source with
    | .error error source => .error error source
    | .ok [] source => .ok pieces.reverse.flatten source
    | .ok (first :: others) source =>
        gather (wanted - (others.length + 1)) ((first :: others) :: pieces) source
termination_by wanted

/-- The next `count` bytes, all of which must exist. -/
def take (count : Nat) : EStateM Error Source Bytes := do
  let found ← gather count []
  if found.length < count then
    throw { root := .io .endOfBody }
  else
    return found

/-- Read a header and as many bytes as it announces. -/
def frame : EStateM Error Source Frame := do
  let header ← FixedHeader.read byte
  let body ← take header.remainingLength
  return { header, body }

/-- Read a frame and the packet in it. -/
def received : EStateM Error Source Received := do
  let frame ← frame
  match Received.ofFrame frame with
  | .ok received => return received
  | .error error => throw error

/-- Read one packet. -/
def packet : EStateM Error Source Packet := do
  let received ← received
  return received.packet

end Source

end MqttWire
