import MqttWire.Proofs.PropertyGrammar
import MqttWire.Proofs.PropertyTable

/-! # Counts of properties

Whether properties are permitted in a part of a packet depends on how often each identifier
occurs among them, and on nothing else: not on the values, nor on the order in which they were
added or stood on the wire. The walk over the groups of the set, which stops at the first group
that is too large, comes to the smallest identifier that occurs too often.
-/

namespace MqttWire

namespace Allowance

variable {allowance : Allowance} {count : Nat}

theorem permits_iff : allowance.permits count ↔ ∀ limit ∈ allowance.limit?, count ≤ limit := by
  cases allowance <;> simp [permits, limit?]

@[simp] theorem permits_zero (allowance : Allowance) : allowance.permits 0 := by
  cases allowance <;> rfl

end Allowance

/-- How often an identifier occurs. -/
def Property.occurrences (id : PropertyId) (list : List Property) : Nat :=
  list.countP (·.id == id)

namespace PacketPart

/-- An identifier does not occur more often than the part allows. -/
def Allows (part : PacketPart) (list : List Property) (id : PropertyId) : Prop :=
  ∀ limit ∈ (part.allowance id).limit?, Property.occurrences id list ≤ limit

/-- The smallest identifier that occurs more often than the part allows. -/
structure IsFirstOffender (part : PacketPart) (list : List Property) (id : PropertyId) :
    Prop where
  offends : ¬part.Allows list id
  allows_smaller : ∀ other : PropertyId, other.code < id.code → part.Allows list other

end PacketPart

/-! ## The smallest identifier -/

namespace PropertyId

variable {offends : PropertyId → Bool} {id : PropertyId}

theorem not_of_find?_all (found : all.find? offends = some id) {other : PropertyId}
    (smaller : other.code < id.code) : ¬offends other := by
  obtain ⟨-, before, behind, split, clear⟩ := List.find?_eq_some_iff_append.1 found
  have ascending := ascending_all
  have known := mem_all other
  rw [split] at ascending known
  rcases List.mem_append.1 known with isBefore | notBefore
  · simpa using clear other isBefore
  · rcases List.mem_cons.1 notBefore with rfl | isBehind
    · exact absurd smaller (Nat.lt_irrefl _)
    · have larger := (List.pairwise_cons.1 (List.pairwise_append.1 ascending).2.1).1 other isBehind
      exact absurd smaller (Nat.lt_asymm larger)

/-- The search in ascending order finds the smallest identifier. -/
theorem find?_all_eq_some :
    all.find? offends = some id ↔
      offends id ∧ ∀ other : PropertyId, other.code < id.code → ¬offends other := by
  constructor
  · intro found
    exact ⟨List.find?_some found, fun _ => not_of_find?_all found⟩
  · intro least
    obtain ⟨offending, clear⟩ := least
    cases found : all.find? offends with
    | none => exact absurd offending (List.find?_eq_none.1 found id (mem_all id))
    | some first =>
        have notSmaller : ¬first.code < id.code := fun smaller =>
          clear first smaller (List.find?_some found)
        have notLarger : ¬id.code < first.code := fun larger =>
          not_of_find?_all found larger offending
        have same : first = id := code_injective
          (Nat.le_antisymm (Nat.le_of_not_lt notLarger) (Nat.le_of_not_lt notSmaller))
        rw [same]

end PropertyId

/-! ## The walk over the groups -/

namespace Table

/-- Go through the groups in order, up to the first that has too many values. -/
def validateFor (part : PacketPart) : Table → Except Error Unit
  | [] => .ok ()
  | group :: table =>
      if (part.allowance group.1).permits group.2.length then validateFor part table
      else .error (Fault.propertyNotPermitted group.1 part group.2.length)

end Table

namespace Properties

theorem length_get (properties : Properties) (id : PropertyId) :
    (properties.get id).length = properties.count id := by
  rw [get, List.length_map, count, List.countP_eq_length_filter]

/-- Identifiers that do not occur are permitted, so that passing over them changes nothing. -/
theorem validateFor_table (properties : Properties) (part : PacketPart) :
    Table.validateFor part properties.table = properties.validateFor part := by
  rw [table, present, validateFor]
  induction PropertyId.all with
  | nil => rfl
  | cons id ids ih =>
      rw [List.filter_cons, List.find?_cons]
      cases permitted : (part.allowance id).permits (properties.count id) with
      | true =>
          rw [Bool.not_true]
          split
          case isTrue => rw [List.map_cons, Table.validateFor, length_get, if_pos permitted, ih]
          case isFalse => exact ih
      | false =>
          have occurs : (properties.get id).isEmpty = false := by
            rw [Bool.eq_false_iff]
            intro none
            rw [← length_get, List.isEmpty_iff.1 none, List.length_nil,
              Allowance.permits_zero] at permitted
            cases permitted
          rw [occurs, Bool.not_false, if_pos rfl, List.map_cons, Table.validateFor, length_get,
            if_neg (Bool.eq_false_iff.1 permitted)]

/-! ## Sets and the lists they come from -/

variable {list other : List Property}

theorem count_ofList (list : List Property) (id : PropertyId) :
    (ofList list).count id = Property.occurrences id list :=
  (toList_ofList_perm list).countP_eq _

/-- A property is inserted as it is pushed. -/
theorem insert_self (property : Property) :
    insert property.id property.value = modify (·.push property) := by
  rw [insert, Entry.make_eq_ok.2 ⟨rfl, rfl⟩]
  rfl

/-- Properties are inserted one after the other without being refused. -/
theorem forM_insert (list : List Property) (properties : Properties) :
    forM list (fun property => insert property.id property.value) properties =
      .ok () (properties.extend list) := by
  induction list generalizing properties with
  | nil => rfl
  | cons property list ih =>
      rw [List.forM_cons, insert_self]
      exact ih (properties.push property)

theorem validateFor_congr {properties properties' : Properties}
    (same : ∀ id, properties.count id = properties'.count id) (part : PacketPart) :
    properties.validateFor part = properties'.validateFor part := by
  simp only [validateFor, same]

theorem permits_ofList_iff {part : PacketPart} {id : PropertyId} :
    (part.allowance id).permits ((ofList list).count id) ↔ part.Allows list id := by
  rw [count_ofList, Allowance.permits_iff, PacketPart.Allows]

theorem validateFor_eq_ok {part : PacketPart} :
    (ofList list).validateFor part = .ok () ↔ ∀ id, part.Allows list id := by
  simp only [validateFor, ← permits_ofList_iff]
  split
  case h_1 id found =>
    have offending := List.find?_some found
    rw [Bool.not_eq_true'] at offending
    exact ⟨nofun, fun allows => absurd (allows id) (Bool.eq_false_iff.1 offending)⟩
  case h_2 notFound =>
    refine ⟨fun _ id => ?_, fun _ => rfl⟩
    simpa using List.find?_eq_none.1 notFound id (PropertyId.mem_all id)

theorem find?_offender {part : PacketPart} {id : PropertyId} :
    PropertyId.all.find? (fun id => !(part.allowance id).permits ((ofList list).count id)) =
      some id ↔ part.IsFirstOffender list id := by
  simp only [PropertyId.find?_all_eq_some, Bool.not_eq_true', ← Bool.not_eq_true,
    permits_ofList_iff, Classical.not_not]
  exact ⟨fun first => ⟨first.1, first.2⟩, fun first => ⟨first.1, first.2⟩⟩

theorem validateFor_eq_error {part : PacketPart} {error : Error} :
    (ofList list).validateFor part = .error error ↔ ∃ id, part.IsFirstOffender list id ∧
      error = Fault.propertyNotPermitted id part (Property.occurrences id list) := by
  constructor
  · intro failed
    simp only [validateFor] at failed
    split at failed
    case h_1 id found =>
      cases failed
      exact ⟨id, find?_offender.1 found, by rw [count_ofList]⟩
    case h_2 => cases failed
  · intro first
    obtain ⟨id, first, rfl⟩ := first
    simp only [validateFor]
    rw [find?_offender.2 first]
    simp only [count_ofList]

/-- Properties that are permitted stay so when some of them are taken away. -/
theorem validateFor_of_sublist {part : PacketPart} {fewer : List Property}
    (kept : fewer.Sublist list) (permitted : (ofList list).validateFor part = .ok ()) :
    (ofList fewer).validateFor part = .ok () := by
  rw [validateFor_eq_ok] at permitted ⊢
  exact fun id limit isLimit => Nat.le_trans kept.countP_le (permitted id limit isLimit)

theorem validateFor_of_perm (reordered : other.Perm list) (part : PacketPart) :
    (ofList other).validateFor part = (ofList list).validateFor part :=
  validateFor_congr (fun id => by
    rw [count_ofList, count_ofList]
    exact reordered.countP_eq _) part

theorem reader_of_entries {form : BlockForm} (carried : form.entries.map PropertyForm.property = list)
    (rest : Bytes) : reader (form.bytes ++ rest) = .ok (ofList list) rest := by
  refine reader_eq_ok.2 ⟨form, eq_of_toList_eq ?_, rfl⟩
  rw [toList_ofList, ← carried]
  rfl

/-- A list of properties, inserted one after the other or read from the entries of a block in
    whatever order these stand, is permitted just when no identifier occurs too often in it.
    Otherwise the smallest identifier that does is reported, with its full count; so does a walk
    over the groups of the set. The order of the list does not matter, and less is permitted
    where more is. -/
theorem validateFor_by_counts (part : PacketPart) (list : List Property) :
    (forM list (fun property => insert property.id property.value) empty = .ok () (ofList list) ∧
      ∀ form : BlockForm, form.entries.map PropertyForm.property = list →
        ∀ rest, reader (form.bytes ++ rest) = .ok (ofList list) rest) ∧
    Table.validateFor part (Table.extend [] list) = (ofList list).validateFor part ∧
    ((ofList list).validateFor part = .ok () ↔ ∀ id, part.Allows list id) ∧
    (∀ error, (ofList list).validateFor part = .error error ↔ ∃ id, part.IsFirstOffender list id ∧
      error = Fault.propertyNotPermitted id part (Property.occurrences id list)) ∧
    (∀ other : List Property, other.Perm list →
      (ofList other).validateFor part = (ofList list).validateFor part) ∧
    ∀ fewer : List Property, fewer.Sublist list →
      (ofList list).validateFor part = .ok () → (ofList fewer).validateFor part = .ok () := by
  refine ⟨⟨forM_insert list empty, fun form => reader_of_entries⟩, ?walk, validateFor_eq_ok,
    fun error => validateFor_eq_error, fun other reordered => validateFor_of_perm reordered part,
    fun fewer => validateFor_of_sublist⟩
  case walk => rw [← table_empty, ← table_extend, ← ofList, validateFor_table]

/-- A quality of service in front of another property and behind it is reported with its count
    of two, also in the reverse order. Without the one behind, and then without the other
    property, the rest is permitted. -/
theorem validateFor_by_counts_connack :
    let quality (value : UInt8) : PropertyForm :=
      ⟨.maximumQoS, .shortest 36 (by decide), by decide, .byte value⟩
    let retain : PropertyForm := ⟨.retainAvailable, .shortest 37 (by decide), by decide, .byte 1⟩
    let block : BlockForm :=
      ⟨.shortest 6 (by decide), [quality 0, retain, quality 1], by decide⟩
    let list := block.entries.map PropertyForm.property
    reader [6, 36, 0, 37, 1, 36, 1, 0xFF] = .ok (ofList list) [0xFF] ∧
      (ofList list.reverse).validateFor .connack =
        .error (Fault.propertyNotPermitted .maximumQoS .connack 2) ∧
      (ofList (list.take 2)).validateFor .connack = .ok () ∧
      (ofList (list.take 1)).validateFor .connack = .ok () := by
  intro quality retain block list
  obtain ⟨⟨-, reads⟩, -, -, -, reorders, -⟩ := validateFor_by_counts .connack list
  obtain ⟨-, -, -, -, -, lessens⟩ := validateFor_by_counts .connack (list.take 2)
  have reported : (ofList list).validateFor .connack =
      .error (Fault.propertyNotPermitted .maximumQoS .connack 2) := by decide +kernel
  have permitted : (ofList (list.take 2)).validateFor .connack = .ok () := by decide +kernel
  have fewer : (list.take 1).Sublist (list.take 2) := List.take_sublist_take_left (by decide)
  exact ⟨reads block rfl [0xFF], (reorders _ list.reverse_perm).trans reported, permitted,
    lessens _ fewer permitted⟩

end Properties

end MqttWire
