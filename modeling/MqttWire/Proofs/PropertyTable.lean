import MqttWire.Json.Properties
import MqttWire.Proofs.Block
import MqttWire.Proofs.Ordered

/-! # Properties grouped by identifier

A property set as a map from identifiers to values, with the operations as they
are done on the map. The map knows nothing of what was checked before: a value goes
in as it is. That it holds only what fits is a consequence of the ways in which
values come.
-/

namespace MqttWire

theorem Datum.overflow_eq_none_iff {value : Datum} :
    value.overflow? = none ↔ ∀ number, value = .varInt number → number ≤ maxVarInt := by
  cases value with
  | varInt number =>
      constructor
      · intro within other isNumber
        cases isNumber
        exact Decidable.byContradiction fun large => by
          rw [overflow?, if_neg large] at within
          cases within
      · intro small
        exact if_pos (small number rfl)
  | _ => exact ⟨fun _ => nofun, fun _ => rfl⟩

/-- Identifier and value, nothing about which is known. -/
def Property.pair (property : Property) : PropertyId × Datum := (property.id, property.value)

theorem Property.pair_injective : Function.Injective pair := by
  rintro ⟨id, value, kind_value, overflow_value⟩ ⟨id', value', kind_value', overflow_value'⟩ same
  cases same
  rfl

theorem Properties.itemsOf_place {property : Property} {list : List Property}
    (ordered : Ordered Property.id list) (id : PropertyId) :
    itemsOf Property.id id (place property list) = itemsOf Property.id id (list ++ [property]) := by
  induction list with
  | nil => rfl
  | cons head tail ih =>
      rw [place]
      split
      case isTrue below =>
        -- Everything in the list is of a larger identifier.
        have only : itemsOf Property.id property.id (head :: tail) = [] :=
          itemsOf_eq_nil fun other member isOf => by
            have above := ordered.head_le member
            rw [isOf] at above
            omega
        rw [itemsOf_append]
        by_cases isId : property.id = id
        · rw [itemsOf_cons, if_pos isId, ← isId, only, itemsOf_cons, if_pos rfl]
          rfl
        · rw [itemsOf_cons, if_neg isId, itemsOf_cons id property, if_neg isId]
          exact (List.append_nil _).symm
      case isFalse =>
        rw [List.cons_append, itemsOf_cons, itemsOf_cons, ih ordered.of_cons]

theorem Properties.itemsOf_extend (properties : Properties) (more : List Property)
    (id : PropertyId) :
    itemsOf Property.id id (properties.extend more).toList =
      itemsOf Property.id id properties.toList ++ itemsOf Property.id id more := by
  induction more generalizing properties with
  | nil => exact (List.append_nil _).symm
  | cons property more ih =>
      have placed : itemsOf Property.id id (properties.push property).toList = _ :=
        itemsOf_place properties.ordered id
      rw [extend, List.foldl_cons, ← extend, ih, placed, itemsOf_append, List.append_assoc,
        ← itemsOf_append, List.singleton_append]

/-! ## Tables -/

/-- Values grouped by identifier. -/
abbrev Table := List (PropertyId × List Datum)

namespace Table

/-- Append a value to those of its identifier. -/
def add (id : PropertyId) (value : Datum) : Table → Table
  | [] => [(id, [value])]
  | group :: table =>
      if id.code < group.1.code then (id, [value]) :: group :: table
      else if group.1 = id then (id, group.2 ++ [value]) :: table
      else group :: add id value table

/-- Values of an identifier, none if it does not occur. -/
def get (table : Table) (id : PropertyId) : List Datum :=
  (table.find? (·.1 == id)).elim [] Prod.snd

/-- Identifiers ascend, so that each has one group. -/
def Ascending (table : Table) : Prop := table.Pairwise fun a b => a.1.code < b.1.code

variable {id key : PropertyId} {value : Datum} {group : PropertyId × List Datum} {table : Table}

theorem get_eq (table : Table) (id : PropertyId) :
    get table id = (itemsOf Prod.fst id table).head?.elim [] Prod.snd := by
  rw [itemsOf, List.head?_filter, get]

theorem get_cons (group : PropertyId × List Datum) (table : Table) (id : PropertyId) :
    get (group :: table) id = if group.1 = id then group.2 else get table id := by
  rw [get_eq, itemsOf_cons, get_eq]
  split <;> rfl

theorem Ascending.ordered (ascending : Ascending table) : Ordered Prod.fst table :=
  ascending.imp fun below => Nat.le_of_lt below

/-- No identifier up to the first one occurs behind it. -/
theorem Ascending.itemsOf_eq_nil (ascending : Ascending (group :: table))
    (notAbove : id.code ≤ group.1.code) : itemsOf Prod.fst id table = [] :=
  MqttWire.itemsOf_eq_nil fun other member isId => by
    have below := (List.pairwise_cons.1 ascending).1 other member
    rw [isId] at below
    omega

theorem fst_mem_add (member : group ∈ add id value table) :
    group.1 = id ∨ ∃ old ∈ table, old.1 = group.1 := by
  induction table with
  | nil =>
      cases List.mem_singleton.1 member
      exact .inl rfl
  | cons head table ih =>
      rw [add] at member
      split at member
      · rcases List.mem_cons.1 member with rfl | member
        · exact .inl rfl
        · exact .inr ⟨group, member, rfl⟩
      · split at member
        · rcases List.mem_cons.1 member with rfl | member
          · exact .inl rfl
          · exact .inr ⟨group, .tail _ member, rfl⟩
        · rcases List.mem_cons.1 member with rfl | member
          · exact .inr ⟨group, .head _, rfl⟩
          · refine (ih member).imp_right fun found => ?_
            obtain ⟨old, member, same⟩ := found
            exact ⟨old, .tail _ member, same⟩

theorem Ascending.add (ascending : Ascending table) (id : PropertyId) (value : Datum) :
    Ascending (add id value table) := by
  induction table with
  | nil => exact List.pairwise_singleton ..
  | cons head table ih =>
      obtain ⟨least, others⟩ := List.pairwise_cons.1 ascending
      rw [Table.add]
      split
      case isTrue below =>
        refine List.pairwise_cons.2 ⟨fun group member => ?_, ascending⟩
        rcases List.mem_cons.1 member with rfl | member
        · exact below
        · exact Nat.lt_trans below (least group member)
      case isFalse notBelow =>
        split
        case isTrue isId =>
          refine List.pairwise_cons.2 ⟨fun group member => ?_, others⟩
          rw [← isId]
          exact least group member
        case isFalse differ =>
          refine List.pairwise_cons.2 ⟨fun group member => ?_, ih others⟩
          rcases fst_mem_add member with isId | ⟨old, member, same⟩
          · have notSame : head.1.code ≠ id.code := fun same =>
              differ (PropertyId.code_injective same)
            rw [isId]
            omega
          · rw [← same]
            exact least old member

theorem itemsOf_add (ascending : Ascending table) (id : PropertyId) (value : Datum)
    (key : PropertyId) :
    itemsOf Prod.fst key (add id value table) =
      if id = key then [(id, get table id ++ [value])] else itemsOf Prod.fst key table := by
  induction table with
  | nil => rw [add, itemsOf_cons]; rfl
  | cons head table ih =>
      rw [add]
      split
      case isTrue below =>
        have none : itemsOf Prod.fst id (head :: table) = [] := by
          have differ : head.1 ≠ id := fun isId => Nat.lt_irrefl _ (isId ▸ below)
          rw [itemsOf_cons, if_neg differ, ascending.itemsOf_eq_nil (Nat.le_of_lt below)]
        rw [itemsOf_cons]
        by_cases isKey : id = key
        · rw [if_pos isKey, if_pos isKey, ← isKey, get_eq, none]
          rfl
        · rw [if_neg isKey, if_neg isKey]
      case isFalse notBelow =>
        split
        case isTrue isId =>
          have none : itemsOf Prod.fst id table = [] :=
            ascending.itemsOf_eq_nil (Nat.le_of_eq (congrArg PropertyId.code isId.symm))
          rw [itemsOf_cons, itemsOf_cons, isId]
          by_cases isKey : id = key
          · rw [if_pos isKey, if_pos isKey, get_cons, if_pos isId, ← isKey, none]
          · rw [if_neg isKey, if_neg isKey, if_neg isKey]
        case isFalse differ =>
          rw [itemsOf_cons, itemsOf_cons, ih ascending.of_cons, get_cons, if_neg differ]
          by_cases isKey : id = key
          · rw [if_pos isKey, if_pos isKey, if_neg (isKey ▸ differ)]
          · rw [if_neg isKey, if_neg isKey]

/-! ## What a table shows -/

/-- The values one after the other, each with its identifier. -/
def pairs (table : Table) : List (PropertyId × Datum) :=
  table.flatMap fun group => group.2.map fun value => (group.1, value)

/-- Number of values. -/
def length (table : Table) : Nat :=
  table.foldr (fun group total => group.2.length + total) 0

/-- Bytes that the values occupy with their identifiers. -/
def size (table : Table) : Nat :=
  (pairs table).foldr (fun pair total => VarInt.size pair.1.code + pair.2.size + total) 0

/-- Check a value and append it. -/
def insert (id : PropertyId) (value : Datum) : EStateM Error Table Unit := do
  let property ← ofExcept (Property.make id value)
  modify (add property.id property.value)

def extend (table : Table) (more : List Property) : Table :=
  more.foldl (fun table property => add property.id property.value table) table

/-- Read an identifier and the value it asks for. -/
def entryReader : Reader (PropertyId × Datum) := do
  let code ← VarInt.reader
  match PropertyId.ofCode? code with
  | none => Reader.fail (.unknownProperty code)
  | some id =>
      let value ← Datum.reader id.kind
      return (id, value)

theorem advances_entryReader : entryReader.Advances := by
  refine VarInt.advances_reader.bind fun code => ?_
  split
  · exact Reader.shortens_fail _
  · exact (Property.shortens_value _).bind fun _ => Reader.shortens_pure _

/-- Read a length and, within exactly that many bytes, values that go in as they are. -/
def reader : Reader Table := do
  let length ← VarInt.reader
  let block ← Reader.take length
  let entries ← Reader.lift ((Reader.untilEnd entryReader advances_entryReader).all block)
  return entries.foldl (fun table entry => add entry.1 entry.2 table) []

/-- The table that results from inserting the values of all groups. -/
def ofGroups (groups : List (PropertyId × List Datum)) : Except Error Table :=
  Properties.load insert [] groups

end Table

theorem Payload.overflow_datum (payload : Payload) : payload.datum.overflow? = none := by
  cases payload with
  | number numeral => exact if_pos numeral.value_le
  | plain datum bytes notNumber =>
      cases datum with
      | varInt => exact absurd rfl notNumber
      | _ => rfl

namespace Reader

theorem all_map (f : α → β) (reader : Reader α) (input : Bytes) :
    (f <$> reader).all input = (reader.all input).map f := by
  unfold all
  simp only [Functor.map, EStateM.map]
  cases reader input with
  | error => rfl
  | ok value rest => cases rest <;> rfl

end Reader

namespace Properties

/-! ## The table of a set -/

/-- The values of each identifier that occurs. -/
def table (properties : Properties) : Table :=
  properties.present.map fun id => (id, properties.get id)

variable (properties : Properties)

theorem itemsOf_table (id : PropertyId) :
    itemsOf Prod.fst id properties.table =
      if (properties.get id).isEmpty then [] else [(id, properties.get id)] := by
  have occurs : itemsOf (fun key => key) id properties.present =
      if (properties.get id).isEmpty then [] else [id] := by
    have only := PropertyId.itemsOf_all id
    rw [itemsOf] at only
    rw [itemsOf, present, List.filter_comm, only, List.filter_cons]
    cases (properties.get id).isEmpty <;> rfl
  have mapped : itemsOf Prod.fst id properties.table =
      (itemsOf (fun key => key) id properties.present).map fun id => (id, properties.get id) :=
    List.filter_map ..
  rw [mapped, occurs]
  split <;> rfl

theorem ascending_table : Table.Ascending properties.table :=
  List.pairwise_map.2 (PropertyId.ascending_all.filter _)

theorem get_table (id : PropertyId) : Table.get properties.table id = properties.get id := by
  rw [Table.get_eq, itemsOf_table]
  split
  case isTrue none => exact (List.isEmpty_iff.1 none).symm
  case isFalse => rfl

theorem get_push (property : Property) (id : PropertyId) :
    (properties.push property).get id =
      if property.id = id then properties.get id ++ [property.value] else properties.get id := by
  have placed : itemsOf Property.id id (place property properties.toList) = _ :=
    itemsOf_place properties.ordered id
  rw [itemsOf_append, itemsOf_cons] at placed
  change (itemsOf Property.id id (place property properties.toList)).map Property.value = _
  rw [placed]
  split
  · exact List.map_append ..
  · exact congrArg (List.map Property.value) (List.append_nil _)

/-- A property that is pushed is appended to the values of its identifier. -/
theorem table_push (property : Property) :
    (properties.push property).table = Table.add property.id property.value properties.table := by
  have ascending := properties.ascending_table
  refine (ascending_table _).ordered.eq_of_itemsOf_eq (ascending.add _ _).ordered fun id => ?_
  rw [itemsOf_table, get_push, Table.itemsOf_add ascending, itemsOf_table, get_table]
  split
  case isTrue isId =>
    have some : (properties.get id ++ [property.value]).isEmpty = false :=
      List.isEmpty_eq_false_iff.2 (List.append_ne_nil_of_right_ne_nil _ (List.cons_ne_nil _ _))
    rw [some, isId]
    rfl
  case isFalse => rfl

theorem table_empty : empty.table = [] := by decide

theorem table_extend (more : List Property) :
    (properties.extend more).table = Table.extend properties.table more := by
  induction more generalizing properties with
  | nil => rfl
  | cons property more ih =>
      rw [extend, List.foldl_cons, ← extend, ih, table_push, Table.extend, Table.extend,
        List.foldl_cons]

/-! ## Values that are read -/

/-- A value that was read for an identifier passes its checks. -/
theorem make_of_reader {id : PropertyId} {input rest : Bytes} {value : Datum}
    (read : Datum.reader id.kind input = .ok value rest) :
    ∃ property, Property.make id value = .ok property ∧ property.id = id ∧
      property.value = value := by
  obtain ⟨_, ⟨payload, rfl, -, sameKind⟩, -⟩ := (Payload.accepts_reader id.kind).1 read
  let property : Property := ⟨id, payload.datum, sameKind, payload.overflow_datum⟩
  exact ⟨property, Entry.make_eq_ok.2 ⟨rfl, rfl⟩, rfl, rfl⟩

/-- What an operation comes to, with the table in the place of the set. -/
def tabulated : EStateM.Result Error Properties α → EStateM.Result Error Table α
  | .ok value properties => .ok value properties.table
  | .error error properties => .error error properties.table

/-- The operations do the same, one to a set and the other to its table. -/
def InStep (onSet : EStateM Error Properties α) (onTable : EStateM Error Table α) : Prop :=
  ∀ properties : Properties, tabulated (onSet properties) = onTable properties.table

theorem InStep.bind {onSet : EStateM Error Properties α} {onTable : EStateM Error Table α}
    {nextOnSet : α → EStateM Error Properties β} {nextOnTable : α → EStateM Error Table β}
    (first : InStep onSet onTable)
    (second : ∀ value, InStep (nextOnSet value) (nextOnTable value)) :
    InStep (onSet >>= nextOnSet) (onTable >>= nextOnTable) := by
  intro properties
  have same := first properties
  change tabulated (EStateM.bind onSet nextOnSet properties) =
    EStateM.bind onTable nextOnTable properties.table
  unfold EStateM.bind
  rw [← same]
  cases onSet properties with
  | ok value changed => exact second value changed
  | error => rfl

theorem InStep.forM {onSet : α → EStateM Error Properties Unit}
    {onTable : α → EStateM Error Table Unit} (each : ∀ item, InStep (onSet item) (onTable item))
    (items : List α) : InStep (forM items onSet) (forM items onTable) := by
  induction items with
  | nil => exact fun _ => rfl
  | cons item items ih => exact (each item).bind fun _ => ih

theorem exists_of_mem_table {group : PropertyId × List Datum} (member : group ∈ properties.table)
    {value : Datum} (inGroup : value ∈ group.2) :
    ∃ property : Property, property.id = group.1 ∧ property.value = value := by
  obtain ⟨id, -, rfl⟩ := List.mem_map.1 member
  obtain ⟨property, found, rfl⟩ := List.mem_map.1 inGroup
  exact ⟨property, (mem_itemsOf.1 found).2, rfl⟩

/-- Identifiers that do not occur add nothing. -/
theorem flatMap_present {piece : PropertyId → List α}
    (absent : ∀ id, properties.get id = [] → piece id = []) :
    properties.present.flatMap piece = PropertyId.all.flatMap piece := by
  unfold present
  induction PropertyId.all with
  | nil => rfl
  | cons id ids ih =>
      rw [List.filter_cons, List.flatMap_cons]
      cases none : (properties.get id).isEmpty with
      | true =>
          rw [absent id (List.isEmpty_iff.1 none), List.nil_append]
          exact ih
      | false => exact congrArg (piece id ++ ·) ih

theorem pairs_table :
    Table.pairs properties.table =
      properties.toList.map Property.pair := by
  have ordered : Ordered Property.id properties.toList := properties.ordered
  have grouped (id : PropertyId) : (properties.get id).map (fun value => (id, value)) =
      (itemsOf Property.id id properties.toList).map Property.pair := by
    rw [get, List.map_map]
    refine List.map_congr_left fun property member => ?_
    exact congrArg (·, property.value) (mem_itemsOf.1 member).2.symm
  calc Table.pairs properties.table
      = properties.present.flatMap fun id => (properties.get id).map fun value => (id, value) :=
        List.flatMap_map ..
    _ = PropertyId.all.flatMap fun id => (properties.get id).map fun value => (id, value) :=
        properties.flatMap_present fun id none => by rw [none]; rfl
    _ = (PropertyId.all.flatMap fun id => itemsOf Property.id id properties.toList).map
          Property.pair := by
        simp only [grouped, List.map_flatMap]
    _ = properties.toList.map Property.pair := by
        rw [ordered.flatMap_all]

end Properties

end MqttWire
