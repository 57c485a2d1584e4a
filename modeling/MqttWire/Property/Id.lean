import MqttWire.Datum.Kind

/-! # Property identifiers

The twenty-seven identifiers, their codes, and the data representation that
each of them fixes for its value.
-/

namespace MqttWire

/-- Identifier of a property. -/
inductive PropertyId where
  | payloadFormatIndicator
  | messageExpiryInterval
  | contentType
  | responseTopic
  | correlationData
  | subscriptionIdentifier
  | sessionExpiryInterval
  | assignedClientIdentifier
  | serverKeepAlive
  | authenticationMethod
  | authenticationData
  | requestProblemInformation
  | willDelayInterval
  | requestResponseInformation
  | responseInformation
  | serverReference
  | reasonString
  | receiveMaximum
  | topicAliasMaximum
  | topicAlias
  | maximumQoS
  | retainAvailable
  | userProperty
  | maximumPacketSize
  | wildcardSubscriptionAvailable
  | subscriptionIdentifierAvailable
  | sharedSubscriptionAvailable
  deriving Repr, DecidableEq

namespace PropertyId

/-- Every identifier, in ascending order of codes. -/
def all : List PropertyId :=
  [.payloadFormatIndicator, .messageExpiryInterval, .contentType, .responseTopic,
    .correlationData, .subscriptionIdentifier, .sessionExpiryInterval, .assignedClientIdentifier,
    .serverKeepAlive, .authenticationMethod, .authenticationData, .requestProblemInformation,
    .willDelayInterval, .requestResponseInformation, .responseInformation, .serverReference,
    .reasonString, .receiveMaximum, .topicAliasMaximum, .topicAlias, .maximumQoS,
    .retainAvailable, .userProperty, .maximumPacketSize, .wildcardSubscriptionAvailable,
    .subscriptionIdentifierAvailable, .sharedSubscriptionAvailable]

/-- Number that stands for the identifier on the wire. -/
def code : PropertyId → Nat
  | .payloadFormatIndicator => 1
  | .messageExpiryInterval => 2
  | .contentType => 3
  | .responseTopic => 8
  | .correlationData => 9
  | .subscriptionIdentifier => 11
  | .sessionExpiryInterval => 17
  | .assignedClientIdentifier => 18
  | .serverKeepAlive => 19
  | .authenticationMethod => 21
  | .authenticationData => 22
  | .requestProblemInformation => 23
  | .willDelayInterval => 24
  | .requestResponseInformation => 25
  | .responseInformation => 26
  | .serverReference => 28
  | .reasonString => 31
  | .receiveMaximum => 33
  | .topicAliasMaximum => 34
  | .topicAlias => 35
  | .maximumQoS => 36
  | .retainAvailable => 37
  | .userProperty => 38
  | .maximumPacketSize => 39
  | .wildcardSubscriptionAvailable => 40
  | .subscriptionIdentifierAvailable => 41
  | .sharedSubscriptionAvailable => 42

/-- Identifier with the given code. -/
def ofCode? (code : Nat) : Option PropertyId :=
  all.find? (·.code == code)

@[simp] theorem ofCode?_code (id : PropertyId) : ofCode? id.code = some id := by
  cases id <;> rfl

theorem code_of_ofCode? {code : Nat} {id : PropertyId} (found : ofCode? code = some id) :
    id.code = code := by
  simpa using List.find?_some found

theorem code_injective {a b : PropertyId} (same : a.code = b.code) : a = b := by
  have read := ofCode?_code a
  rw [same, ofCode?_code] at read
  exact (Option.some.inj read).symm

def name : PropertyId → String
  | .payloadFormatIndicator => "PayloadFormatIndicator"
  | .messageExpiryInterval => "MessageExpiryInterval"
  | .contentType => "ContentType"
  | .responseTopic => "ResponseTopic"
  | .correlationData => "CorrelationData"
  | .subscriptionIdentifier => "SubscriptionIdentifier"
  | .sessionExpiryInterval => "SessionExpiryInterval"
  | .assignedClientIdentifier => "AssignedClientIdentifier"
  | .serverKeepAlive => "ServerKeepAlive"
  | .authenticationMethod => "AuthenticationMethod"
  | .authenticationData => "AuthenticationData"
  | .requestProblemInformation => "RequestProblemInformation"
  | .willDelayInterval => "WillDelayInterval"
  | .requestResponseInformation => "RequestResponseInformation"
  | .responseInformation => "ResponseInformation"
  | .serverReference => "ServerReference"
  | .reasonString => "ReasonString"
  | .receiveMaximum => "ReceiveMaximum"
  | .topicAliasMaximum => "TopicAliasMaximum"
  | .topicAlias => "TopicAlias"
  | .maximumQoS => "MaximumQoS"
  | .retainAvailable => "RetainAvailable"
  | .userProperty => "UserProperty"
  | .maximumPacketSize => "MaximumPacketSize"
  | .wildcardSubscriptionAvailable => "WildcardSubscriptionAvailable"
  | .subscriptionIdentifierAvailable => "SubscriptionIdentifierAvailable"
  | .sharedSubscriptionAvailable => "SharedSubscriptionAvailable"

/-- Name and code, as messages show them. -/
def label (id : PropertyId) : String :=
  id.name ++ " (" ++ toString id.code ++ ")"

/-- Data representation of the property's value. -/
def kind : PropertyId → DatumKind
  | .payloadFormatIndicator | .requestProblemInformation | .requestResponseInformation
  | .maximumQoS | .retainAvailable | .wildcardSubscriptionAvailable
  | .subscriptionIdentifierAvailable | .sharedSubscriptionAvailable => .byte
  | .serverKeepAlive | .receiveMaximum | .topicAliasMaximum | .topicAlias => .uint16
  | .messageExpiryInterval | .sessionExpiryInterval | .willDelayInterval
  | .maximumPacketSize => .uint32
  | .subscriptionIdentifier => .varInt
  | .contentType | .responseTopic | .assignedClientIdentifier | .authenticationMethod
  | .responseInformation | .serverReference | .reasonString => .text
  | .userProperty => .pair
  | .correlationData | .authenticationData => .binary

end PropertyId

end MqttWire
