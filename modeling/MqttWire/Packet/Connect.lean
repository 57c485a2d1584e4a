import MqttWire.FixedHeader
import MqttWire.Properties
import MqttWire.QoS

/-! # CONNECT

The request that opens a connection. One flags byte says which of the optional
fields follow, and carries the QoS and the retain flag of the will.
-/

namespace MqttWire

/-- Message that the server publishes if the client goes away without a word. -/
structure Will where
  qos : QoS
  retain : Bool
  properties : Properties
  topic : String
  payload : Bytes
  deriving Repr, DecidableEq, Inhabited

def Will.size (will : Will) : Nat :=
  will.properties.encodedLength + textSize will.topic + binarySize will.payload

/-- Request to open a connection. -/
structure Connect where
  /-- Whether an existing session is discarded. -/
  cleanStart : Bool
  /-- Longest silence in seconds. -/
  keepAlive : UInt16
  properties : Properties
  clientId : String
  will : Option Will
  username : Option String
  password : Option Bytes
  deriving Repr, DecidableEq, Inhabited

/-- QoS and retain flag of a will. -/
structure WillFlags where
  qos : QoS
  retain : Bool
  deriving Repr, DecidableEq

/-- What the flags byte of a CONNECT says. -/
structure ConnectFlags where
  cleanStart : Bool
  will : Option WillFlags
  password : Bool
  username : Bool
  deriving Repr, DecidableEq

namespace ConnectFlags

/-- Bits of a will: presence in bit 2, QoS in bits 3 and 4, retain in bit 5. -/
def willBits : Option WillFlags → Nat
  | none => 0
  | some will => 4 + will.qos.code * 8 + will.retain.toNat * 32

/-- The flags byte. -/
def toByte (flags : ConnectFlags) : UInt8 :=
  UInt8.ofNat (flags.cleanStart.toNat * 2 + willBits flags.will + flags.password.toNat * 64 +
    flags.username.toNat * 128)

/-- Read the bits of a will. Without a will they must all be clear, retain
    being checked before QoS. -/
def willOfBits (bits : Nat) : Except Error (Option WillFlags) :=
  let retain := bits.testBit 5
  let qosCode := bits / 8 % 4
  if bits.testBit 2 then
    match QoS.ofCode qosCode with
    | .ok qos => .ok (some { qos, retain })
    | .error error => .error (error.within (.field .willQoS))
  else if retain then .error (Fault.willFlagWithoutWill .retain)
  else if qosCode ≠ 0 then .error (Fault.willFlagWithoutWill .qos)
  else .ok none

/-- Read the flags byte, the reserved bit first. -/
def ofByte (byte : UInt8) : Except Error ConnectFlags :=
  let bits := byte.toNat
  if bits.testBit 0 then .error (Fault.reservedBitsSet .connectFlags byte)
  else
    (willOfBits bits).map fun will => {
      cleanStart := bits.testBit 1
      will
      password := bits.testBit 6
      username := bits.testBit 7 }

end ConnectFlags

namespace Connect

/-- Length and bytes of the protocol name. -/
def nameField : Bytes := [0, 4] ++ protocolName

/-- The flags byte that goes with the fields. -/
def flags (packet : Connect) : ConnectFlags where
  cleanStart := packet.cleanStart
  will := packet.will.map fun will => { qos := will.qos, retain := will.retain }
  password := packet.password.isSome
  username := packet.username.isSome

def remainingLength (packet : Connect) : Nat :=
  10 + packet.properties.encodedLength + textSize packet.clientId +
    packet.will.elim 0 Will.size + packet.username.elim 0 textSize +
    packet.password.elim 0 binarySize

/-- Stop if the client identifier is over its limit. -/
def checkClientId (clientId : String) : Except Error Unit :=
  if clientId.utf8ByteSize ≤ maxClientIdLength then .ok ()
  else .error (Fault.clientIdTooLong clientId.utf8ByteSize)

def header (packet : Connect) : FixedHeader :=
  { type := .connect, flags := .clear, remainingLength := packet.remainingLength }

def willDraft (will : Will) : Draft :=
  .concat [
    will.properties.draft.inField .willProperties,
    (Draft.text will.topic).inField .willTopic,
    (Draft.binary will.payload).inField .willPayload]

def body (packet : Connect) : Draft :=
  .concat [
    .raw (nameField ++ [protocolLevel]),
    .byte packet.flags.toByte,
    .uint16 packet.keepAlive,
    packet.properties.draft.inField .properties,
    (Draft.text packet.clientId).inField .clientId,
    .optional packet.will willDraft,
    .optional packet.username fun username => (Draft.text username).inField .username,
    .optional packet.password fun password => (Draft.binary password).inField .password]

/-- Stop unless the client identifier is short enough. -/
def checks (packet : Connect) : Draft :=
  .require (packet.clientId.utf8ByteSize ≤ maxClientIdLength)
    (.clientIdTooLong packet.clientId.utf8ByteSize)

def draft (packet : Connect) : Draft := packet.checks ++ packet.header.draft ++ packet.body

/-- Append the packet to a buffer, and count what is announced. -/
def write (packet : Connect) : EStateM Error Bytes Nat := do
  discard packet.checks.write
  packet.header.writeWith packet.body

/-- Read the protocol name and level, which only one value each passes. -/
def protocolReader : Reader Unit := do
  let found ← Reader.take 7
  let name := found.take 6
  let level := found.getD 6 0
  if name ≠ nameField then
    Reader.fail (.invalidProtocolName name)
  else if level ≠ protocolLevel then
    Reader.fail (.unsupportedProtocolLevel level)
  else
    pure ()

/-- Read the will that goes with its flags. -/
def willReader (flags : WillFlags) : Reader Will := do
  let properties ← Properties.reader.inField .willProperties
  let topic ← Reader.text.inField .willTopic
  let payload ← Reader.binary.inField .willPayload
  return { qos := flags.qos, retain := flags.retain, properties, topic, payload }

/-- Read a will only if there are flags for one. -/
def announcedWill : Option WillFlags → Reader (Option Will)
  | some flags => some <$> willReader flags
  | none => pure none

/-- Read a field only if it is announced. -/
def announced (present : Bool) (reader : Reader α) : Reader (Option α) :=
  if present then some <$> reader else pure none

def reader : Reader Connect := do
  protocolReader
  let flagsByte ← Reader.byte.inField .connectFlags
  let flags ← Reader.lift (ConnectFlags.ofByte flagsByte)
  let keepAlive ← Reader.uint16.inField .keepAlive
  let properties ← Properties.reader.inField .properties
  let clientId ← Reader.text.inField .clientId
  Reader.lift (checkClientId clientId)
  let will ← announcedWill flags.will
  let username ← announced flags.username (Reader.text.inField .username)
  let password ← announced flags.password (Reader.binary.inField .password)
  return { cleanStart := flags.cleanStart, keepAlive, properties, clientId, will, username,
           password }

end Connect

end MqttWire
