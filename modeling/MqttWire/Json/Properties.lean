import MqttWire.Json.Record
import MqttWire.Properties

/-! # Properties as JSON

A value carries the name of its representation, and properties are grouped by
the names of their identifiers. A set that is read is built like any other:
every value is checked against its identifier.
-/

namespace MqttWire

def TextPair.ofJson : Json → Json.Outcome TextPair :=
  Json.toRecord (TextPair.mk <$> .member "key" Json.toText <*> .member "value" Json.toText)

namespace Datum

/-- Write a value under the name of its representation. -/
def toJson : Datum → Json
  | .byte value => .object [("Byte", .number value.toNat)]
  | .uint16 value => .object [("UInt16", .number value.toNat)]
  | .uint32 value => .object [("UInt32", .number value.toNat)]
  | .varInt value => .object [("VarInt", .number value)]
  | .text value => .object [("String", .string value)]
  | .pair value =>
      .object [("KeyValue",
        .object [("key", .string value.key), ("value", .string value.value)])]
  | .binary value => .object [("Binary", .ofBytes value)]

def kindNames : List (String × DatumKind) :=
  [("Byte", .byte), ("UInt16", .uint16), ("UInt32", .uint32), ("VarInt", .varInt),
    ("String", .text), ("KeyValue", .pair), ("Binary", .binary)]

/-- Read a value in the given representation. -/
def ofJsonAs (json : Json) : DatumKind → Json.Outcome Datum
  | .byte => .byte <$> json.toByte
  | .uint16 => .uint16 <$> json.toUInt16
  | .uint32 => .uint32 <$> json.toUInt32
  | .varInt => .varInt <$> json.toNatBelow 4294967296
  | .text => .text <$> json.toText
  | .pair => .pair <$> TextPair.ofJson json
  | .binary => .binary <$> json.toBytes

/-- Read a value under the name of its representation. -/
def ofJson (json : Json) : Json.Outcome Datum := do
  let (name, content) ← json.toChoice
  let kind ← Json.choose kindNames name
  ofJsonAs content kind

end Datum

def PropertyId.names : List (String × PropertyId) :=
  PropertyId.all.map fun id => (id.name, id)

namespace Properties

/-- Identifiers that occur, in ascending order. -/
def present (properties : Properties) : List PropertyId :=
  PropertyId.all.filter fun id => !(properties.get id).isEmpty

/-- Write the values of each identifier under its name. -/
def toJson (properties : Properties) : Json :=
  .object [("entries", .object (properties.present.map fun id =>
    (id.name, .array ((properties.get id).map Datum.toJson))))]

/-- Read the values of one identifier. -/
def groupOfJson (group : String × Json) : Json.Outcome (PropertyId × List Datum) := do
  let id ← Json.choose PropertyId.names group.1
  let values ← group.2.toListOf Datum.ofJson
  return (id, values)

/-- Read the values of all identifiers. -/
def groupsOfJson (json : Json) : Json.Outcome (List (PropertyId × List Datum)) := do
  let groups ← json.toMembers
  groups.mapM groupOfJson

/-- The groups that a map keeps, in ascending order: of several groups for one identifier the
    last one. -/
def kept (groups : List (PropertyId × List Datum)) : List (PropertyId × List Datum) :=
  PropertyId.all.flatMap fun id => (groups.filter (·.1 == id)).getLast?.toList

/-- Insert the values that a map keeps one after the other, starting from nothing. -/
def load (insert : PropertyId → Datum → EStateM Error σ Unit) (nothing : σ)
    (groups : List (PropertyId × List Datum)) : Except Error σ :=
  match forM (kept groups) (fun group => forM group.2 (insert group.1)) nothing with
  | .ok () loaded => .ok loaded
  | .error error _ => .error error

/-- The set that results from inserting the values of all groups. -/
def ofGroups (groups : List (PropertyId × List Datum)) : Except Error Properties :=
  load insert empty groups

def ofJson (json : Json) : Json.Outcome Properties := do
  let groups ← json.toRecord (.member "entries" groupsOfJson)
  Json.checked (ofGroups groups)

end Properties

end MqttWire
