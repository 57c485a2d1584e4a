import MqttWire.Property.Basic

/-! # Property sets

The properties of a packet or of a will, kept in the order in which they are
written: identifiers ascend, and the values of one identifier stay in the order
in which they came.
-/

namespace MqttWire

/-- Properties in write order. -/
structure Properties where
  toList : List Property
  /-- Identifiers ascend. -/
  ordered : toList.Pairwise fun a b => a.id.code ≤ b.id.code
  deriving Repr, DecidableEq

namespace Properties

def empty : Properties := ⟨[], .nil⟩

instance : Inhabited Properties := ⟨empty⟩

/-- Place a property behind those whose identifiers are not larger. -/
def place (property : Property) : List Property → List Property
  | [] => [property]
  | head :: tail =>
      if property.id.code < head.id.code then property :: head :: tail
      else head :: place property tail

theorem mem_place {property other : Property} {list : List Property} :
    other ∈ place property list ↔ other = property ∨ other ∈ list := by
  induction list with
  | nil => simp [place]
  | cons head tail ih =>
      simp only [place]
      split
      · simp
      · simp only [List.mem_cons, ih]
        exact or_left_comm

theorem ordered_place (property : Property) {list : List Property}
    (ordered : list.Pairwise fun a b => a.id.code ≤ b.id.code) :
    (place property list).Pairwise fun a b => a.id.code ≤ b.id.code := by
  induction list with
  | nil => simp [place]
  | cons head tail ih =>
      rw [List.pairwise_cons] at ordered
      simp only [place]
      split
      · rename_i below
        refine List.pairwise_cons.2 ⟨fun other member => ?_, List.pairwise_cons.2 ordered⟩
        rcases List.mem_cons.1 member with rfl | member
        · exact Nat.le_of_lt below
        · exact Nat.le_trans (Nat.le_of_lt below) (ordered.1 other member)
      · rename_i notBelow
        refine List.pairwise_cons.2 ⟨fun other member => ?_, ih ordered.2⟩
        rcases mem_place.1 member with rfl | member
        · exact Nat.le_of_not_lt notBelow
        · exact ordered.1 other member

/-- Add a property, behind the earlier ones of its identifier. -/
def push (properties : Properties) (property : Property) : Properties :=
  ⟨place property properties.toList, ordered_place property properties.ordered⟩

def extend (properties : Properties) (more : List Property) : Properties :=
  more.foldl push properties

/-- The set that results from adding properties in the given order. -/
def ofList (list : List Property) : Properties := empty.extend list

/-- Add a value for an identifier to the set, if it has the right kind. -/
def insert (id : PropertyId) (value : Datum) : EStateM Error Properties Unit := do
  let property ← ofExcept (Property.make id value)
  modify (·.push property)

def isEmpty (properties : Properties) : Bool := properties.toList.isEmpty

def length (properties : Properties) : Nat := properties.toList.length

/-- Values of an identifier, in the order in which they came. -/
def get (properties : Properties) (id : PropertyId) : List Datum :=
  (properties.toList.filter (·.id == id)).map Property.value

def first? (properties : Properties) (id : PropertyId) : Option Datum :=
  (properties.get id).head?

def count (properties : Properties) (id : PropertyId) : Nat :=
  properties.toList.countP (·.id == id)

/-! ## Wire form -/

/-- Bytes that the properties occupy, without their length. -/
def size (properties : Properties) : Nat :=
  properties.toList.foldr (fun property total => property.size + total) 0

/-- Bytes that the properties occupy, with their length. -/
def encodedLength (properties : Properties) : Nat :=
  VarInt.size properties.size + properties.size

def draft (properties : Properties) : Draft :=
  VarInt.draft properties.size ++ .concat (properties.toList.map Property.draft)

/-- Read a length and, within exactly that many bytes, properties. -/
def reader : Reader Properties := do
  let length ← VarInt.reader
  let block ← Reader.take length
  let entries ← Reader.lift ((Reader.untilEnd Property.reader Property.advances_reader).all block)
  return ofList entries

/-! ## Advice -/

/-- Compare the counts with the allowances of a part. The smallest identifier
    that is over its allowance is reported, with its full count. -/
def validateFor (properties : Properties) (part : PacketPart) : Except Error Unit :=
  let offends (id : PropertyId) := !(part.allowance id).permits (properties.count id)
  match PropertyId.all.find? offends with
  | some id => .error (Fault.propertyNotPermitted id part (properties.count id))
  | none => .ok ()

end Properties

end MqttWire
