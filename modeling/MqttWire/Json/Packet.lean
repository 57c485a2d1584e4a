import MqttWire.Json.Properties
import MqttWire.Packet

/-! # Packets as JSON

A packet is a record under the name of its type. Absent optional fields may be
null or left out.
-/

namespace MqttWire

open Json.RecordReader (member member?)

def QoS.names : List (String × QoS) :=
  [("AtMostOnce", .atMostOnce), ("AtLeastOnce", .atLeastOnce), ("ExactlyOnce", .exactlyOnce)]

def QoS.toJson : QoS → Json
  | .atMostOnce => .string "AtMostOnce"
  | .atLeastOnce => .string "AtLeastOnce"
  | .exactlyOnce => .string "ExactlyOnce"

def RetainHandling.names : List (String × RetainHandling) :=
  [("SendAtSubscribe", .sendAtSubscribe), ("SendIfNew", .sendIfNew), ("DoNotSend", .doNotSend)]

def RetainHandling.toJson : RetainHandling → Json
  | .sendAtSubscribe => .string "SendAtSubscribe"
  | .sendIfNew => .string "SendIfNew"
  | .doNotSend => .string "DoNotSend"

def Topic.toJson (topic : Topic) : Json := .string topic.name

def Topic.ofJson (json : Json) : Json.Outcome Topic := do
  Json.checked (Topic.parse (← json.toText))

namespace Will

def toJson (will : Will) : Json := .object [
  ("payload", .ofBytes will.payload),
  ("properties", will.properties.toJson),
  ("qos", will.qos.toJson),
  ("retain", .bool will.retain),
  ("topic", .string will.topic)]

def ofJson : Json → Json.Outcome Will := Json.toRecord <|
  Will.mk
    <$> member "qos" (Json.toNamed QoS.names)
    <*> member "retain" Json.toBool
    <*> member "properties" Properties.ofJson
    <*> member "topic" Json.toText
    <*> member "payload" Json.toBytes

end Will

namespace Connect

def toJson (packet : Connect) : Json := .object [
  ("clean_start", .bool packet.cleanStart),
  ("client_id", .string packet.clientId),
  ("keep_alive", .number packet.keepAlive.toNat),
  ("password", .ofOption .ofBytes packet.password),
  ("properties", packet.properties.toJson),
  ("username", .ofOption .string packet.username),
  ("will", .ofOption Will.toJson packet.will)]

def ofJson : Json → Json.Outcome Connect := Json.toRecord <|
  Connect.mk
    <$> member "clean_start" Json.toBool
    <*> member "keep_alive" Json.toUInt16
    <*> member "properties" Properties.ofJson
    <*> member "client_id" Json.toText
    <*> member? "will" Will.ofJson
    <*> member? "username" Json.toText
    <*> member? "password" Json.toBytes

end Connect

namespace Connack

def toJson (packet : Connack) : Json := .object [
  ("properties", packet.properties.toJson),
  ("reason_code", .number packet.reasonCode.toNat),
  ("session_present", .bool packet.sessionPresent)]

def ofJson : Json → Json.Outcome Connack := Json.toRecord <|
  Connack.mk
    <$> member "session_present" Json.toBool
    <*> member "reason_code" Json.toByte
    <*> member "properties" Properties.ofJson

end Connack

namespace Publish

def toJson (packet : Publish) : Json := .object [
  ("dup", .bool packet.dup),
  ("packet_id", .number packet.packetId.toNat),
  ("payload", .ofBytes packet.payload),
  ("properties", packet.properties.toJson),
  ("qos", packet.qos.toJson),
  ("retain", .bool packet.retain),
  ("topic", packet.topic.toJson)]

def ofJson : Json → Json.Outcome Publish := Json.toRecord <|
  Publish.mk
    <$> member "dup" Json.toBool
    <*> member "qos" (Json.toNamed QoS.names)
    <*> member "retain" Json.toBool
    <*> member "topic" Topic.ofJson
    <*> member "packet_id" Json.toUInt16
    <*> member "properties" Properties.ofJson
    <*> member "payload" Json.toBytes

end Publish

namespace SubscriptionOptions

def toJson (options : SubscriptionOptions) : Json := .object [
  ("max_qos", options.maxQoS.toJson),
  ("no_local", .bool options.noLocal),
  ("retain_as_published", .bool options.retainAsPublished),
  ("retain_handling", options.retainHandling.toJson)]

def ofJson : Json → Json.Outcome SubscriptionOptions := Json.toRecord <|
  SubscriptionOptions.mk
    <$> member "max_qos" (Json.toNamed QoS.names)
    <*> member "no_local" Json.toBool
    <*> member "retain_as_published" Json.toBool
    <*> member "retain_handling" (Json.toNamed RetainHandling.names)

end SubscriptionOptions

namespace SubscriptionFilter

def toJson (filter : SubscriptionFilter) : Json := .object [
  ("filter", .string filter.filter),
  ("options", filter.options.toJson)]

def ofJson : Json → Json.Outcome SubscriptionFilter := Json.toRecord <|
  SubscriptionFilter.mk
    <$> member "filter" Json.toText
    <*> member "options" SubscriptionOptions.ofJson

end SubscriptionFilter

namespace Subscribe

def toJson (packet : Subscribe) : Json := .object [
  ("filters", .array (packet.filters.map SubscriptionFilter.toJson)),
  ("packet_id", .number packet.packetId.toNat),
  ("properties", packet.properties.toJson)]

def ofJson : Json → Json.Outcome Subscribe := Json.toRecord <|
  Subscribe.mk
    <$> member "packet_id" Json.toUInt16
    <*> member "properties" Properties.ofJson
    <*> member "filters" (Json.toListOf SubscriptionFilter.ofJson)

end Subscribe

namespace Suback

def toJson (packet : Suback) : Json := .object [
  ("packet_id", .number packet.packetId.toNat),
  ("properties", packet.properties.toJson),
  ("reasons", .ofBytes packet.reasons)]

def ofJson : Json → Json.Outcome Suback := Json.toRecord <|
  Suback.mk
    <$> member "packet_id" Json.toUInt16
    <*> member "properties" Properties.ofJson
    <*> member "reasons" (Json.toListOf Json.toByte)

end Suback

namespace Disconnect

def toJson (packet : Disconnect) : Json := .object [
  ("properties", packet.properties.toJson),
  ("reason_code", .number packet.reasonCode.toNat)]

def ofJson : Json → Json.Outcome Disconnect := Json.toRecord <|
  Disconnect.mk
    <$> member "reason_code" Json.toByte
    <*> member "properties" Properties.ofJson

end Disconnect

namespace Packet

def toJson : Packet → Json
  | .connect packet => .object [("Connect", packet.toJson)]
  | .connack packet => .object [("Connack", packet.toJson)]
  | .publish packet => .object [("Publish", packet.toJson)]
  | .subscribe packet => .object [("Subscribe", packet.toJson)]
  | .suback packet => .object [("Suback", packet.toJson)]
  | .disconnect packet => .object [("Disconnect", packet.toJson)]

/-- Readers of the packets, under the names of their types. -/
def jsonReaders : List (String × (Json → Json.Outcome Packet)) := [
  ("Connect", fun json => .connect <$> Connect.ofJson json),
  ("Connack", fun json => .connack <$> Connack.ofJson json),
  ("Publish", fun json => .publish <$> Publish.ofJson json),
  ("Subscribe", fun json => .subscribe <$> Subscribe.ofJson json),
  ("Suback", fun json => .suback <$> Suback.ofJson json),
  ("Disconnect", fun json => .disconnect <$> Disconnect.ofJson json)]

def ofJson (json : Json) : Json.Outcome Packet := do
  let (name, content) ← json.toChoice
  let read ← Json.choose jsonReaders name
  read content

end Packet

end MqttWire
