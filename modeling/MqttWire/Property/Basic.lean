import MqttWire.Datum
import MqttWire.Property.Allowance

/-! # Single properties

An identifier with a value of the kind that the identifier fixes. A property
that exists can be written, except that its texts and bytes may be too long.
-/

namespace MqttWire

/-- The number that is too large for a variable byte integer, if the value is
    one. -/
def Datum.overflow? : Datum → Option Nat
  | .varInt value => if value ≤ maxVarInt then none else some value
  | _ => none

/-- Identifier and value of matching kinds. -/
structure Property where
  id : PropertyId
  value : Datum
  /-- The value has the kind that the identifier fixes. -/
  kind_value : value.kind = id.kind
  /-- A variable byte integer is within its limit. -/
  overflow_value : value.overflow? = none
  deriving Repr, DecidableEq

namespace Property

/-- Join an identifier and a value. A wrong kind is reported before a number
    that is too large. -/
def make (id : PropertyId) (value : Datum) : Except Error Property :=
  if kind_value : value.kind = id.kind then
    match overflow_value : value.overflow? with
    | none => .ok { id, value, kind_value, overflow_value }
    | some number => .error (Fault.varIntOverflow number)
  else .error (Fault.propertyKindMismatch id value.kind)

def user (key value : String) : Property where
  id := .userProperty
  value := .pair { key, value }
  kind_value := rfl
  overflow_value := rfl

def size (property : Property) : Nat :=
  VarInt.size property.id.code + property.value.size

def draft (property : Property) : Draft :=
  VarInt.draft property.id.code ++ property.value.draft

/-- Read an identifier and the value it asks for. -/
def reader : Reader Property := do
  let code ← VarInt.reader
  match PropertyId.ofCode? code with
  | none => Reader.fail (.unknownProperty code)
  | some id =>
      let value ← Datum.reader id.kind
      Reader.lift (make id value)

theorem shortens_value (kind : DatumKind) : (Datum.reader kind).Shortens := by
  have mapped {α β : Type} {reader : Reader α} (shortens : reader.Shortens) (f : α → β) :
      Reader.Shortens (f <$> reader) := by
    rw [map_eq_pure_bind]
    exact shortens.bind fun _ => Reader.shortens_pure _
  cases kind with
  | byte => exact mapped Reader.advances_byte.shortens _
  | uint16 => exact mapped Reader.advances_uint16.shortens _
  | uint32 => exact mapped Reader.advances_uint32.shortens _
  | varInt => exact mapped VarInt.advances_reader.shortens _
  | text => exact mapped Reader.advances_text.shortens _
  | pair =>
      refine mapped (Reader.advances_text.shortens.bind fun _ => ?_) _
      exact Reader.advances_text.shortens.bind fun _ => Reader.shortens_pure _
  | binary => exact mapped Reader.advances_binary.shortens _

theorem advances_reader : reader.Advances := by
  refine VarInt.advances_reader.bind fun code => ?_
  split
  · exact Reader.shortens_fail _
  · exact (shortens_value _).bind fun _ => Reader.shortens_lift _

end Property

end MqttWire
