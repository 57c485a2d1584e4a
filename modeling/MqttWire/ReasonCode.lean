import MqttWire.Text.Quoted

/-! # Reason codes

A reason code is a byte. Three packets give names to some of its values; every
other value is carried all the same.
-/

namespace MqttWire

/-- Outcome reported by a packet. -/
abbrev ReasonCode := UInt8

namespace ReasonCode

/-- Packets that name reason codes. -/
inductive Table where
  | connect
  | disconnect
  | suback
  deriving Repr, DecidableEq

/-- Named codes of a table, in ascending order. -/
def Table.entries : Table → List (ReasonCode × String)
  | .connect => [
      (0x00, "SUCCESS"),
      (0x80, "UNSPECIFIED_ERROR"),
      (0x81, "MALFORMED_PACKET"),
      (0x82, "PROTOCOL_ERROR"),
      (0x83, "IMPLEMENTATION_SPECIFIC_ERROR"),
      (0x84, "UNSUPPORTED_PROTOCOL_VERSION"),
      (0x85, "CLIENT_IDENTIFIER_NOT_VALID"),
      (0x86, "BAD_USER_NAME_OR_PASSWORD"),
      (0x87, "NOT_AUTHORIZED"),
      (0x88, "SERVER_UNAVAILABLE"),
      (0x89, "SERVER_BUSY"),
      (0x8A, "BANNED"),
      (0x8C, "BAD_AUTHENTICATION_METHOD"),
      (0x90, "TOPIC_NAME_INVALID"),
      (0x95, "PACKET_TOO_LARGE"),
      (0x97, "QUOTA_EXCEEDED"),
      (0x99, "PAYLOAD_FORMAT_INVALID"),
      (0x9A, "RETAIN_NOT_SUPPORTED"),
      (0x9B, "QOS_NOT_SUPPORTED"),
      (0x9C, "USE_ANOTHER_SERVER"),
      (0x9D, "SERVER_MOVED"),
      (0x9F, "CONNECTION_RATE_EXCEEDED")]
  | .disconnect => [
      (0x00, "NORMAL_DISCONNECTION"),
      (0x04, "DISCONNECT_WITH_WILL_MESSAGE"),
      (0x80, "UNSPECIFIED_ERROR"),
      (0x81, "MALFORMED_PACKET"),
      (0x82, "PROTOCOL_ERROR"),
      (0x83, "IMPLEMENTATION_SPECIFIC_ERROR"),
      (0x87, "NOT_AUTHORIZED"),
      (0x89, "SERVER_BUSY"),
      (0x8B, "SERVER_SHUTTING_DOWN"),
      (0x8D, "KEEP_ALIVE_TIMEOUT"),
      (0x8E, "SESSION_TAKEN_OVER"),
      (0x8F, "TOPIC_FILTER_INVALID"),
      (0x90, "TOPIC_NAME_INVALID"),
      (0x93, "RECEIVE_MAXIMUM_EXCEEDED"),
      (0x94, "TOPIC_ALIAS_INVALID"),
      (0x95, "PACKET_TOO_LARGE"),
      (0x96, "MESSAGE_RATE_TOO_HIGH"),
      (0x97, "QUOTA_EXCEEDED"),
      (0x98, "ADMINISTRATIVE_ACTION"),
      (0x99, "PAYLOAD_FORMAT_INVALID"),
      (0x9A, "RETAIN_NOT_SUPPORTED"),
      (0x9B, "QOS_NOT_SUPPORTED"),
      (0x9C, "USE_ANOTHER_SERVER"),
      (0x9D, "SERVER_MOVED"),
      (0x9E, "SHARED_SUBSCRIPTIONS_NOT_SUPPORTED"),
      (0x9F, "CONNECTION_RATE_EXCEEDED"),
      (0xA0, "MAXIMUM_CONNECT_TIME"),
      (0xA1, "SUBSCRIPTION_IDENTIFIERS_NOT_SUPPORTED"),
      (0xA2, "WILDCARD_SUBSCRIPTIONS_NOT_SUPPORTED")]
  | .suback => [
      (0x00, "GRANTED_QOS_0"),
      (0x01, "GRANTED_QOS_1"),
      (0x02, "GRANTED_QOS_2"),
      (0x80, "UNSPECIFIED_ERROR"),
      (0x83, "IMPLEMENTATION_SPECIFIC_ERROR"),
      (0x87, "NOT_AUTHORIZED"),
      (0x8F, "TOPIC_FILTER_INVALID"),
      (0x91, "PACKET_IDENTIFIER_IN_USE"),
      (0x97, "QUOTA_EXCEEDED"),
      (0x9E, "SHARED_SUBSCRIPTIONS_NOT_SUPPORTED"),
      (0xA1, "SUBSCRIPTION_IDENTIFIERS_NOT_SUPPORTED"),
      (0xA2, "WILDCARD_SUBSCRIPTIONS_NOT_SUPPORTED")]

/-- Name of a code in a table. -/
def name? (table : Table) (code : ReasonCode) : Option String :=
  table.entries.lookup code

/-- Codes from 0x80 on report failures. -/
def isError (code : ReasonCode) : Bool := 0x80 ≤ code

/-- Name, if there is one, and value of a code. -/
def render (table : Table) (code : ReasonCode) : String :=
  match name? table code with
  | some name => name ++ " (" ++ Text.hexByte code ++ ")"
  | none => Text.hexByte code

example : render .connect 0x8A = "BANNED (0x8a)" := by cbv

end ReasonCode

end MqttWire
