import MqttWire.Error

/-! # JSON values

The JSON that packets are written as: its numbers are naturals. A value is read
as what is expected in its place, and says so when it is something else.
-/

namespace MqttWire

/-- JSON value. -/
inductive Json where
  | null
  | bool (value : Bool)
  | number (value : Nat)
  | string (value : String)
  | array (items : List Json)
  /-- Members in the order in which they are visited. -/
  | object (members : List (String × Json))
  deriving Repr, Inhabited

/-- Why a JSON value could not be read. -/
inductive JsonError where
  /-- The protocol refuses what the value stands for. -/
  | refused (error : Error)
  /-- A record lacks a member. -/
  | missingField (name : String)
  /-- A record has a member twice. -/
  | duplicateField (name : String)
  /-- A name is not one of those that are possible. -/
  | unknownVariant (name : String) (expected : List String)
  /-- The value has another shape. -/
  | unexpected (expected : String)
  deriving Repr, DecidableEq

/-- The reason in words. -/
def JsonError.message : JsonError → String
  | .refused error => error.message
  | .missingField name => s!"missing field `{name}`"
  | .duplicateField name => s!"duplicate field `{name}`"
  | .unknownVariant name expected =>
      let choices := ", ".intercalate (expected.map fun choice => s!"`{choice}`")
      s!"unknown variant `{name}`, expected one of {choices}"
  | .unexpected expected => s!"invalid type: expected {expected}"

namespace Json

/-- Outcome of reading a JSON value. -/
abbrev Outcome (α : Type) := Except JsonError α

/-- Pass on what the protocol says about a value. -/
def checked : Except Error α → Outcome α
  | .ok value => .ok value
  | .error error => .error (.refused error)

/-- Truth value. -/
def toBool : Json → Outcome Bool
  | .bool value => .ok value
  | _ => .error (.unexpected "a boolean")

/-- Number below a bound. -/
def toNatBelow (bound : Nat) : Json → Outcome Nat
  | .number value =>
      if value < bound then .ok value else .error (.unexpected s!"a number below {bound}")
  | _ => .error (.unexpected "a number")

/-- Number of eight bits. -/
def toByte (json : Json) : Outcome UInt8 := UInt8.ofNat <$> json.toNatBelow 256

/-- Number of sixteen bits. -/
def toUInt16 (json : Json) : Outcome UInt16 := UInt16.ofNat <$> json.toNatBelow 65536

/-- Number of thirty-two bits. -/
def toUInt32 (json : Json) : Outcome UInt32 := UInt32.ofNat <$> json.toNatBelow 4294967296

/-- Text. -/
def toText : Json → Outcome String
  | .string value => .ok value
  | _ => .error (.unexpected "a string")

/-- List, item by item. -/
def toListOf (read : Json → Outcome α) : Json → Outcome (List α)
  | .array items => items.mapM read
  | _ => .error (.unexpected "a sequence")

/-- Bytes as a list of numbers, or those of a text. -/
def toBytes : Json → Outcome Bytes
  | .string text => .ok (Utf8.encode text)
  | json => json.toListOf toByte

/-- Value that may be null. -/
def toNullable (read : Json → Outcome α) : Json → Outcome (Option α)
  | .null => .ok none
  | json => some <$> read json

/-- Members under their names, in the order in which they are visited. -/
def toMembers : Json → Outcome (List (String × Json))
  | .object members => .ok members
  | _ => .error (.unexpected "a map")

/-- A choice by name, with what belongs to it: a record of one member, or the
    name alone. -/
def toChoice : Json → Outcome (String × Json)
  | .object [member] => .ok member
  | .string name => .ok (name, .null)
  | _ => .error (.unexpected "a string or a map with a single key")

/-- The choice with a given name, out of an association list. -/
def choose (choices : List (String × α)) (name : String) : Outcome α :=
  match choices.lookup name with
  | some choice => .ok choice
  | none => .error (.unknownVariant name (choices.map Prod.fst))

/-- Choice to which nothing belongs. -/
def toNamed (choices : List (String × α)) (json : Json) : Outcome α := do
  let (name, content) ← json.toChoice
  let choice ← choose choices name
  match content with
  | .null => return choice
  | _ => throw (.unexpected "nothing")

/-- Bytes as a list of numbers. -/
def ofBytes (bytes : Bytes) : Json := .array (bytes.map fun byte => .number byte.toNat)

/-- Value that may be absent, which null stands for. -/
def ofOption (write : α → Json) : Option α → Json
  | some value => write value
  | none => .null

end Json

end MqttWire
