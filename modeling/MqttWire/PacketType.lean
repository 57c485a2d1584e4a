/-! # Control packet types

The fifteen packet types, their codes in the first header byte, and the header
flags each of them requires.
-/

namespace MqttWire

/-- Low four bits of a packet's first byte. -/
abbrev HeaderFlags := Fin 16

namespace HeaderFlags

/-- All flags clear. -/
def clear : HeaderFlags := ⟨0, by decide⟩

/-- The one pattern other than clear that the protocol fixes for a packet. -/
def reserved : HeaderFlags := ⟨2, by decide⟩

end HeaderFlags

/-- Kind of a control packet. -/
inductive PacketType where
  | connect
  | connack
  | publish
  | puback
  | pubrec
  | pubrel
  | pubcomp
  | subscribe
  | suback
  | unsubscribe
  | unsuback
  | pingreq
  | pingresp
  | disconnect
  | auth
  deriving Repr, DecidableEq

namespace PacketType

/-- Every packet type, in ascending order of codes. -/
def all : List PacketType :=
  [.connect, .connack, .publish, .puback, .pubrec, .pubrel, .pubcomp, .subscribe, .suback,
    .unsubscribe, .unsuback, .pingreq, .pingresp, .disconnect, .auth]

/-- High four bits of a packet's first byte. -/
def code : PacketType → Nat
  | .connect => 1
  | .connack => 2
  | .publish => 3
  | .puback => 4
  | .pubrec => 5
  | .pubrel => 6
  | .pubcomp => 7
  | .subscribe => 8
  | .suback => 9
  | .unsubscribe => 10
  | .unsuback => 11
  | .pingreq => 12
  | .pingresp => 13
  | .disconnect => 14
  | .auth => 15

/-- Packet type with the given code. -/
def ofCode? : Nat → Option PacketType
  | 1 => some .connect
  | 2 => some .connack
  | 3 => some .publish
  | 4 => some .puback
  | 5 => some .pubrec
  | 6 => some .pubrel
  | 7 => some .pubcomp
  | 8 => some .subscribe
  | 9 => some .suback
  | 10 => some .unsubscribe
  | 11 => some .unsuback
  | 12 => some .pingreq
  | 13 => some .pingresp
  | 14 => some .disconnect
  | 15 => some .auth
  | _ => none

@[simp] theorem ofCode?_code (type : PacketType) : ofCode? type.code = some type := by
  cases type <;> rfl

theorem code_of_ofCode? {code : Nat} {type : PacketType} (found : ofCode? code = some type) :
    type.code = code := by
  unfold ofCode? at found
  split at found <;> simp_all [PacketType.code] <;> subst found <;> rfl

theorem code_lt (type : PacketType) : type.code < 16 := by
  cases type <;> decide

def name : PacketType → String
  | .connect => "CONNECT"
  | .connack => "CONNACK"
  | .publish => "PUBLISH"
  | .puback => "PUBACK"
  | .pubrec => "PUBREC"
  | .pubrel => "PUBREL"
  | .pubcomp => "PUBCOMP"
  | .subscribe => "SUBSCRIBE"
  | .suback => "SUBACK"
  | .unsubscribe => "UNSUBSCRIBE"
  | .unsuback => "UNSUBACK"
  | .pingreq => "PINGREQ"
  | .pingresp => "PINGRESP"
  | .disconnect => "DISCONNECT"
  | .auth => "AUTH"

/-- Header flags that the packet must carry. A PUBLISH has none: its flags
    carry data. -/
def requiredFlags? : PacketType → Option HeaderFlags
  | .publish => none
  | .pubrel | .subscribe | .unsubscribe => some .reserved
  | _ => some .clear

end PacketType

end MqttWire
