import MqttWire.FixedHeader
import MqttWire.Properties
import MqttWire.QoS

/-! # SUBSCRIBE

A request for subscriptions: topic filters, each with a byte of options. The
list has no count; it ends with the packet.
-/

namespace MqttWire

/-- When retained messages are sent for a new subscription. -/
inductive RetainHandling where
  | sendAtSubscribe
  | sendIfNew
  | doNotSend
  deriving Repr, DecidableEq, Inhabited

namespace RetainHandling

def code : RetainHandling → Nat
  | .sendAtSubscribe => 0
  | .sendIfNew => 1
  | .doNotSend => 2

def ofCode : Nat → Except Error RetainHandling
  | 0 => .ok .sendAtSubscribe
  | 1 => .ok .sendIfNew
  | 2 => .ok .doNotSend
  | other => .error (Fault.invalidRetainHandling other)

@[simp] theorem ofCode_code (handling : RetainHandling) :
    ofCode handling.code = .ok handling := by
  cases handling <;> rfl

end RetainHandling

/-- Options of a subscription. -/
structure SubscriptionOptions where
  /-- Highest QoS of deliveries. -/
  maxQoS : QoS
  /-- Whether the client's own messages are left out. -/
  noLocal : Bool
  /-- Whether deliveries keep the retain flag. -/
  retainAsPublished : Bool
  retainHandling : RetainHandling
  deriving Repr, DecidableEq, Inhabited

namespace SubscriptionOptions

/-- The options byte: QoS in bits 0 and 1, then the two switches, then the
    retain handling in bits 4 and 5. -/
def toByte (options : SubscriptionOptions) : UInt8 :=
  UInt8.ofNat (options.maxQoS.code + options.noLocal.toNat * 4 +
    options.retainAsPublished.toNat * 8 + options.retainHandling.code * 16)

/-- Read the options byte. Its two highest bits are reserved; the QoS is checked
    before the retain handling. -/
def ofByte (byte : UInt8) : Except Error SubscriptionOptions :=
  let bits := byte.toNat
  if 64 ≤ bits then .error (Fault.reservedBitsSet .subscriptionOptions byte)
  else do
    let maxQoS ← QoS.ofCode (bits % 4)
    let retainHandling ← RetainHandling.ofCode (bits / 16 % 4)
    return { maxQoS, noLocal := bits.testBit 2, retainAsPublished := bits.testBit 3,
             retainHandling }

end SubscriptionOptions

/-- Topic filter, which may hold wildcards, with its options. -/
structure SubscriptionFilter where
  filter : String
  options : SubscriptionOptions
  deriving Repr, DecidableEq, Inhabited

namespace SubscriptionFilter

def size (filter : SubscriptionFilter) : Nat := textSize filter.filter + 1

def draft (filter : SubscriptionFilter) : Draft :=
  (Draft.text filter.filter).inField .topicFilter ++ .byte filter.options.toByte

def optionsReader : Reader SubscriptionOptions := do
  let byte ← Reader.byte
  Reader.lift (SubscriptionOptions.ofByte byte)

def reader : Reader SubscriptionFilter := do
  let filter ← Reader.text.inField .topicFilter
  let options ← optionsReader.inField .subscriptionOptions
  return { filter, options }

theorem advances_reader : reader.Advances := by
  refine (Reader.advances_text.within _).bind fun _ => ?_
  refine Reader.Shortens.bind (Reader.Shortens.within ?_ _) fun _ => Reader.shortens_pure _
  exact Reader.advances_byte.shortens.bind fun _ => Reader.shortens_lift _

end SubscriptionFilter

/-- Request for subscriptions. -/
structure Subscribe where
  packetId : UInt16
  properties : Properties
  filters : List SubscriptionFilter
  deriving Repr, DecidableEq, Inhabited

namespace Subscribe

def remainingLength (packet : Subscribe) : Nat :=
  2 + packet.properties.encodedLength +
    packet.filters.foldr (fun filter total => filter.size + total) 0

def header (packet : Subscribe) : FixedHeader :=
  { type := .subscribe, flags := .reserved, remainingLength := packet.remainingLength }

def body (packet : Subscribe) : Draft :=
  .concat [
    .uint16 packet.packetId,
    packet.properties.draft.inField .properties,
    .concat (packet.filters.map SubscriptionFilter.draft)]

def draft (packet : Subscribe) : Draft := packet.header.draft ++ packet.body

/-- Append the packet to a buffer, and count what is announced. -/
def write (packet : Subscribe) : EStateM Error Bytes Nat := packet.header.writeWith packet.body

def reader : Reader Subscribe := do
  let packetId ← Reader.uint16.inField .packetId
  let properties ← Properties.reader.inField .properties
  let filters ← Reader.untilEnd SubscriptionFilter.reader SubscriptionFilter.advances_reader
  return { packetId, properties, filters }

end Subscribe

end MqttWire
