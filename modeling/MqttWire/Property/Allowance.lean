import MqttWire.Property.Id

/-! # Allowances

How many times each property may appear in each part of a packet. The table is
advice: reading a packet does not consult it.
-/

namespace MqttWire

/-- Place that carries properties: a packet, or the will inside a CONNECT. -/
inductive PacketPart where
  | connect
  | connack
  | publish
  | puback
  | pubrec
  | pubrel
  | pubcomp
  | subscribe
  | suback
  | unsubscribe
  | unsuback
  | disconnect
  | auth
  /-- Properties of the will message. -/
  | will
  deriving Repr, DecidableEq

def PacketPart.name : PacketPart → String
  | .connect => "Connect"
  | .connack => "Connack"
  | .publish => "Publish"
  | .puback => "Puback"
  | .pubrec => "Pubrec"
  | .pubrel => "Pubrel"
  | .pubcomp => "Pubcomp"
  | .subscribe => "Subscribe"
  | .suback => "Suback"
  | .unsubscribe => "Unsubscribe"
  | .unsuback => "Unsuback"
  | .disconnect => "Disconnect"
  | .auth => "Auth"
  | .will => "Will"

def PacketPart.all : List PacketPart :=
  [.connect, .connack, .publish, .puback, .pubrec, .pubrel, .pubcomp, .subscribe, .suback,
    .unsubscribe, .unsuback, .disconnect, .auth, .will]

/-- How often a property may appear. -/
inductive Allowance where
  | never
  | once
  | unlimited
  deriving Repr, DecidableEq

namespace Allowance

/-- Largest permitted count, if there is one. -/
def limit? : Allowance → Option Nat
  | .never => some 0
  | .once => some 1
  | .unlimited => none

/-- Whether `count` occurrences are permitted. -/
def permits : Allowance → Nat → Bool
  | .never, count => count == 0
  | .once, count => count ≤ 1
  | .unlimited, _ => true

end Allowance

/-- Parts in which a property may appear, apart from those in which it may
    repeat. -/
def PropertyId.partsOnce : PropertyId → List PacketPart
  | .payloadFormatIndicator | .messageExpiryInterval | .contentType | .responseTopic
  | .correlationData => [.publish, .will]
  | .subscriptionIdentifier => [.subscribe]
  | .sessionExpiryInterval => [.connect, .connack, .disconnect]
  | .assignedClientIdentifier | .serverKeepAlive | .responseInformation | .maximumQoS
  | .retainAvailable | .wildcardSubscriptionAvailable | .subscriptionIdentifierAvailable
  | .sharedSubscriptionAvailable => [.connack]
  | .authenticationMethod | .authenticationData => [.connect, .connack, .auth]
  | .requestProblemInformation | .requestResponseInformation => [.connect]
  | .willDelayInterval => [.will]
  | .serverReference => [.connack, .disconnect]
  | .reasonString =>
      [.connack, .puback, .pubrec, .pubrel, .pubcomp, .suback, .unsuback, .disconnect, .auth]
  | .receiveMaximum | .topicAliasMaximum | .maximumPacketSize => [.connect, .connack]
  | .topicAlias => [.publish]
  | .userProperty => []

/-- Allowance of a property in a part. User properties may repeat everywhere,
    and a PUBLISH carries one subscription identifier per matching
    subscription. -/
def PacketPart.allowance (part : PacketPart) : PropertyId → Allowance
  | .userProperty => .unlimited
  | id =>
      if part = .publish ∧ id = .subscriptionIdentifier then .unlimited
      else if part ∈ id.partsOnce then .once
      else .never

end MqttWire
