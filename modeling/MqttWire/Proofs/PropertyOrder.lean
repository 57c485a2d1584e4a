import MqttWire.Proofs.PropertyHistory

/-! # Orders in which properties are added

A property set keeps the values of each identifier in the order in which they were added, and
nothing else of the order. Two lists that differ only in how identifiers alternate give one
set, and one set is written in one way. What is written is read as the set again.
-/

namespace MqttWire

/-- The values that a list has for an identifier, in the order in which they come. -/
def Property.valuesOf (id : PropertyId) (list : List Property) : List Datum :=
  (itemsOf Property.id id list).map Property.value

variable {first second : List Property}

/-- Properties of one identifier are told apart by their values. -/
theorem itemsOf_eq_of_valuesOf_eq {id : PropertyId}
    (same : Property.valuesOf id first = Property.valuesOf id second) :
    itemsOf Property.id id first = itemsOf Property.id id second := by
  have pairs (list : List Property) : (itemsOf Property.id id list).map Property.pair =
      (Property.valuesOf id list).map (Prod.mk id) := by
    rw [Property.valuesOf, List.map_map]
    refine List.map_congr_left fun property member => ?_
    exact congrArg (·, property.value) (mem_itemsOf.1 member).2
  apply List.map_injective_iff.2 Property.pair_injective
  rw [pairs, pairs, same]

namespace Properties

theorem get_ofList (list : List Property) (id : PropertyId) :
    (ofList list).get id = Property.valuesOf id list :=
  (agrees_of_holds (Change.holds_ofList list)).get id

/-- A set is what it has for each identifier. -/
theorem eq_of_get_eq {properties other : Properties}
    (same : ∀ id, properties.get id = other.get id) : properties = other := by
  apply eq_of_toList_eq
  exact Ordered.eq_of_itemsOf_eq properties.ordered other.ordered fun id =>
    itemsOf_eq_of_valuesOf_eq (same id)

theorem ofList_eq_iff :
    ofList first = ofList second ↔
      ∀ id, Property.valuesOf id first = Property.valuesOf id second := by
  constructor
  · intro same id
    rw [← get_ofList, same, get_ofList]
  · intro same
    refine eq_of_get_eq fun id => ?_
    rw [get_ofList, get_ofList, same]

/-- What is written is read as the set, whatever follows it. -/
theorem read_of_draft {properties : Properties} {block : Bytes}
    (written : properties.draft.toExcept = .ok block) (suffix : Bytes) :
    reader (block ++ suffix) = .ok properties suffix := by
  obtain ⟨form, carried, rfl, -⟩ := Block.exists_of_draft written
  exact Block.accepts_reader.read ⟨form, carried, rfl⟩ suffix

/-- Equal sets are written alike, and what is written alike is read as one set. -/
theorem eq_iff_of_draft {properties other : Properties} {bytes bytes' : Bytes}
    (written : properties.draft.toExcept = .ok bytes)
    (written' : other.draft.toExcept = .ok bytes') : bytes = bytes' ↔ properties = other := by
  constructor
  · rintro rfl
    have read := read_of_draft written []
    rw [read_of_draft written' []] at read
    cases read
    rfl
  · rintro rfl
    rw [written] at written'
    exact Except.ok.inj written'

/-- A set that can be written appends as many bytes as it announces, which are read as the set
    whatever follows. The sets of two lists are equal just when the lists have the same values
    for each identifier, in the same order, and just then they are written alike. -/
theorem round_trip_of_values :
    (∀ (properties : Properties) (buffer after : Bytes),
      (Draft.raw buffer ++ properties.draft).toExcept = .ok after →
      ∃ block, after = buffer ++ block ∧ block.length = properties.encodedLength ∧
        ∀ suffix, reader (block ++ suffix) = .ok properties suffix) ∧
    ∀ first second : List Property,
      (ofList first = ofList second ↔
        ∀ id, Property.valuesOf id first = Property.valuesOf id second) ∧
      ∀ bytes bytes', (ofList first).draft.toExcept = .ok bytes →
        (ofList second).draft.toExcept = .ok bytes' →
        (bytes = bytes' ↔ ∀ id, Property.valuesOf id first = Property.valuesOf id second) := by
  constructor
  · intro properties buffer after appended
    obtain ⟨_, block, ⟨⟩, written, rfl⟩ := Draft.toExcept_append_eq_ok.1 appended
    exact ⟨block, rfl, properties.measures_draft written, read_of_draft written⟩
  · intro first second
    refine ⟨ofList_eq_iff, fun bytes bytes' written written' => ?_⟩
    rw [eq_iff_of_draft written written', ofList_eq_iff]

/-- A session expiry interval may be added in front of two user properties or between them. -/
theorem round_trip_of_values_user :
    let expiry : Property := ⟨.sessionExpiryInterval, .uint32 100, rfl, rfl⟩
    let first : List Property := [.user "b" "2", expiry, .user "a" "1"]
    let second : List Property := [expiry, .user "b" "2", .user "a" "1"]
    let written : Bytes :=
      [19, 17, 0, 0, 0, 100, 38, 0, 1, 98, 0, 1, 50, 38, 0, 1, 97, 0, 1, 49]
    (∃ block, 7 :: written = [7] ++ block ∧ block.length = (ofList first).encodedLength ∧
      ∀ suffix, reader (block ++ suffix) = .ok (ofList first) suffix) ∧
    ∀ id, Property.valuesOf id first = Property.valuesOf id second := by
  intro expiry first second written
  obtain ⟨reads, orders⟩ := round_trip_of_values
  refine ⟨reads (ofList first) [7] (7 :: written) (by decide +kernel), ?_⟩
  exact ((orders first second).2 written written (by decide +kernel) (by decide +kernel)).1 rfl

end Properties

end MqttWire
