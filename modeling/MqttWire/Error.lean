import MqttWire.Limits
import MqttWire.PacketType
import MqttWire.Property.Allowance
import MqttWire.Text.Quoted
import MqttWire.Text.Utf8

/-! # Errors

An error is a fault, the cause, inside layers that say which packet and which
field was at work. Its wording and its class are functions of these.
-/

namespace MqttWire

/-- Field of a packet that an error can point at. -/
inductive Field where
  | acknowledgeFlags
  | clientId
  | connectFlags
  | keepAlive
  | packetId
  | password
  | properties
  | reasonCode
  | subscriptionOptions
  | topic
  | topicFilter
  | username
  | willPayload
  | willProperties
  | willQoS
  | willTopic
  deriving Repr, DecidableEq

def Field.name : Field → String
  | .acknowledgeFlags => "acknowledge flags"
  | .clientId => "client id"
  | .connectFlags => "connect flags"
  | .keepAlive => "keep alive"
  | .packetId => "packet id"
  | .password => "password"
  | .properties => "properties"
  | .reasonCode => "reason code"
  | .subscriptionOptions => "subscription options"
  | .topic => "topic"
  | .topicFilter => "topic filter"
  | .username => "username"
  | .willPayload => "will payload"
  | .willProperties => "will properties"
  | .willQoS => "will QoS"
  | .willTopic => "will topic"

/-- What a two byte length can announce. -/
inductive Measured where
  | text
  | binary
  /-- The topic of a PUBLISH. -/
  | topic
  deriving Repr, DecidableEq

def Measured.name : Measured → String
  | .text => "string"
  | .binary => "binary data"
  | .topic => "topic"

/-- Flag of a CONNECT that describes its will. -/
inductive WillFlag where
  | retain
  | qos
  deriving Repr, DecidableEq

def WillFlag.name : WillFlag → String
  | .retain => "retain"
  | .qos => "QoS"

/-- Failure of a byte source or a byte sink. -/
inductive IoFault where
  /-- The source ended inside a fixed header. -/
  | endOfHeader
  /-- The source ended inside a packet body. -/
  | endOfBody
  /-- The sink took no more bytes. -/
  | sinkFull
  /-- The source itself failed. -/
  | sourceFailed
  deriving Repr, DecidableEq

def IoFault.message : IoFault → String
  | .endOfHeader => "failed to fill whole buffer"
  | .endOfBody => "unexpected end of file"
  | .sinkFull => "failed to write whole buffer"
  | .sourceFailed => "reader failed"

/-- Cause of an error. -/
inductive Fault where
  /-- A source or a sink failed. -/
  | io (fault : IoFault)
  /-- A field extends past the available bytes. -/
  | bufferTooSmall (needed got : Nat)
  /-- Bytes were left over within the remaining length. -/
  | trailingBytes (remaining : Nat)
  /-- A value is too long for its two byte length. -/
  | tooLong (measured : Measured) (length : Nat)
  /-- The fourth byte of a variable byte integer asks for a fifth. -/
  | malformedVarInt
  /-- A number is too large for a variable byte integer. -/
  | varIntOverflow (value : Nat)
  /-- Text is not well-formed UTF-8. -/
  | invalidUtf8 (fault : Utf8.Fault)
  /-- No packet type has this code. -/
  | invalidPacketType (code : Nat)
  /-- The packet type is known but not supported. -/
  | unsupportedPacketType (type : PacketType)
  /-- No property has this code. -/
  | unknownProperty (code : Nat)
  /-- A property's value is not of the kind its identifier fixes. -/
  | propertyKindMismatch (id : PropertyId) (found : DatumKind)
  /-- A property appears more often than its part permits. -/
  | propertyNotPermitted (id : PropertyId) (part : PacketPart) (count : Nat)
  /-- The header flags are not the required ones. -/
  | invalidFlags (type : PacketType) (flags expected : HeaderFlags)
  /-- No QoS has this code. -/
  | invalidQoS (code : Nat)
  /-- Reserved bits of a field are set. -/
  | reservedBitsSet (field : Field) (value : UInt8)
  /-- A CONNECT names another protocol. -/
  | invalidProtocolName (found : Bytes)
  /-- A CONNECT asks for another protocol level. -/
  | unsupportedProtocolLevel (level : UInt8)
  /-- The client identifier is over its limit. -/
  | clientIdTooLong (length : Nat)
  /-- The packet identifier is zero. -/
  | zeroPacketId
  /-- A will flag is set although there is no will. -/
  | willFlagWithoutWill (flag : WillFlag)
  /-- No retain handling has this code. -/
  | invalidRetainHandling (code : Nat)
  /-- The topic cannot be published to. -/
  | invalidTopic (name : String)
  deriving Repr, DecidableEq

def Fault.message : Fault → String
  | .io fault => s!"IO error: {fault.message}"
  | .bufferTooSmall needed got => s!"buffer too small: need {needed} bytes, got {got}"
  | .trailingBytes remaining => s!"{remaining} trailing bytes left unread"
  | .tooLong measured length =>
      s!"{measured.name} too long: {length} bytes (max {maxFieldLength})"
  | .malformedVarInt => "malformed varint: exceeds maximum"
  | .varIntOverflow value => s!"varint overflow: {value} exceeds maximum {maxVarInt}"
  | .invalidUtf8 fault => s!"invalid UTF-8: {fault.message}"
  | .invalidPacketType code => s!"invalid packet type: {code}"
  | .unsupportedPacketType type => s!"unsupported packet type: {type.name}"
  | .unknownProperty code => s!"unknown property identifier: {code}"
  | .propertyKindMismatch id found =>
      s!"property {id.label} expects {id.kind.name} payload, got {found.name}"
  | .propertyNotPermitted id part count =>
      s!"property {id.label} not permitted {count} times in {part.name}"
  | .invalidFlags type flags expected =>
      s!"invalid flags for {type.name}: expected {Text.nibble expected}, got {Text.nibble flags}"
  | .invalidQoS code => s!"invalid QoS value: {code}"
  | .reservedBitsSet field value =>
      s!"reserved bits set in {field.name}: {Text.binaryByte value}"
  | .invalidProtocolName found => s!"unsupported protocol name: {Text.byteList found}"
  | .unsupportedProtocolLevel level => s!"unsupported protocol level: {level.toNat}"
  | .clientIdTooLong length =>
      s!"client id too long: {length} bytes (max {maxClientIdLength})"
  | .zeroPacketId => "packet identifier must be non-zero"
  | .willFlagWithoutWill flag => s!"will {flag.name} set without will flag"
  | .invalidRetainHandling code => s!"invalid retain handling: {code}"
  | .invalidTopic name => s!"invalid topic name: {Text.quoted name}"

/-- Broad class of a cause. -/
inductive ErrorKind where
  /-- A source or sink failed. -/
  | io
  /-- A length or bound was violated. -/
  | length
  /-- A variable byte integer goes on for too long. -/
  | malformedVarInt
  /-- The bytes break a rule of the protocol. -/
  | protocol
  /-- A packet type or property that is not supported. -/
  | unsupported
  deriving Repr, DecidableEq

def Fault.kind : Fault → ErrorKind
  | .io _ => .io
  | .bufferTooSmall .. | .trailingBytes .. | .tooLong .. | .varIntOverflow .. => .length
  | .malformedVarInt => .malformedVarInt
  | .unsupportedPacketType .. | .unknownProperty .. => .unsupported
  | _ => .protocol

/-- What was at work when a fault arose. -/
inductive Layer where
  | packet (type : PacketType)
  | field (field : Field)
  deriving Repr, DecidableEq

def Layer.name : Layer → String
  | .packet type => type.name
  | .field which => which.name

/-- A fault and the layers around it. -/
structure Error where
  /-- What was at work, outermost first. -/
  context : List Layer := []
  root : Fault
  deriving Repr, DecidableEq

namespace Error

instance : Coe Fault Error where
  coe root := { root }

/-- The error inside one more layer. -/
def within (layer : Layer) (error : Error) : Error :=
  { error with context := layer :: error.context }

@[simp] theorem root_within (layer : Layer) (error : Error) :
    (error.within layer).root = error.root := rfl

@[simp] theorem context_within (layer : Layer) (error : Error) :
    (error.within layer).context = layer :: error.context := rfl

def kind (error : Error) : ErrorKind := error.root.kind

/-- The layers and the cause in words. -/
def message (error : Error) : String :=
  error.context.foldr (fun layer inner => s!"{layer.name}: {inner}") error.root.message

end Error

end MqttWire
