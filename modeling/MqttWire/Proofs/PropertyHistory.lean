import MqttWire.Proofs.PropertyTable

/-! # Property sets and what was added to them

Whatever is done with a property set, it shows the properties that were added
since it was last emptied or replaced: all of them, sorted by identifier, those
of one identifier in the order in which they came. What is refused leaves it as it is.
-/

namespace MqttWire

/-- Something that is done with a property set. -/
inductive Change where
  | clear
  | push (property : Property)
  | insert (id : PropertyId) (value : Datum)
  | extend (more : List Property)
  /-- Replace the set by one that is read from the front of a buffer. -/
  | read (buffer : Bytes)
  /-- Replace the set by one with these groups of values. -/
  | load (groups : List (PropertyId × List Datum))

namespace Change

/-- What is read from the front of a buffer. -/
def front (reader : Reader α) (buffer : Bytes) : Except Error α :=
  match reader buffer with
  | .ok found _ => .ok found
  | .error error _ => .error error

/-- Make a change to a set. -/
def apply : Change → EStateM Error Properties Unit
  | .clear => set Properties.empty
  | .push property => modify (·.push property)
  | .insert id value => Properties.insert id value
  | .extend more => modify (·.extend more)
  | .read buffer => do set (← ofExcept (front Properties.reader buffer))
  | .load groups => do set (← ofExcept (Properties.ofGroups groups))

/-- What is left behind, whether a change was made or refused. -/
def left : EStateM.Result Error σ Unit → σ
  | .ok () state => state
  | .error _ state => state

/-- Make changes one after the other. -/
def run (changes : List Change) (properties : Properties) : Properties :=
  changes.foldl (fun properties change => left (change.apply properties)) properties

/-- An identifier does not take a value of another kind or a number over the limit. -/
def Unfit (id : PropertyId) (value : Datum) : Prop :=
  value.kind ≠ id.kind ∨ ∃ number, value = .varInt number ∧ maxVarInt < number

section Fitting

variable {id : PropertyId} {value : Datum}

theorem not_unfit_of_pair {property : Property} (fits : property.pair = (id, value)) :
    ¬Unfit id value := by
  cases fits
  rintro (otherKind | ⟨number, isNumber, tooLarge⟩)
  · exact otherKind property.kind_value
  · exact Nat.not_lt.2 (Datum.overflow_eq_none_iff.1 property.overflow_value number isNumber) tooLarge

theorem make_eq_ok_iff_pair {property : Property} :
    Property.make id value = .ok property ↔ property.pair = (id, value) := by
  rw [Entry.make_eq_ok, Property.pair, Prod.mk.injEq]

theorem unfit_of_make {error : Error} (failed : Property.make id value = .error error) :
    Unfit id value := by
  by_cases sameKind : value.kind = id.kind
  · refine .inr (Classical.byContradiction fun fitting => ?_)
    have within : value.overflow? = none := Datum.overflow_eq_none_iff.2 fun number isNumber =>
      Nat.le_of_not_lt fun large => fitting ⟨number, isNumber, large⟩
    let property : Property := ⟨id, value, sameKind, within⟩
    have made : Property.make id value = .ok property := Entry.make_eq_ok.2 ⟨rfl, rfl⟩
    rw [made] at failed
    cases failed
  · exact .inl sameKind

end Fitting

/-! ## Loading -/

/-- Values are inserted one after the other, up to one that does not fit. -/
theorem insertAll_outcome (pairs : List (PropertyId × Datum)) (properties : Properties) :
    (∃ list, forM pairs (fun pair => Properties.insert pair.1 pair.2) properties =
        .ok () (properties.extend list) ∧ list.map Property.pair = pairs) ∨
    (∃ error stopped, forM pairs (fun pair => Properties.insert pair.1 pair.2) properties =
        .error error stopped) ∧ ∃ pair ∈ pairs, Unfit pair.1 pair.2 := by
  induction pairs generalizing properties with
  | nil => exact .inl ⟨[], rfl, rfl⟩
  | cons pair pairs ih =>
      simp only [List.forM_cons, bind, EStateM.bind, Properties.insert]
      cases made : Property.make pair.1 pair.2 with
      | error error => exact .inr ⟨⟨error, properties, rfl⟩, pair, .head _, unfit_of_make made⟩
      | ok property =>
          obtain ⟨list, inserted, fits⟩ | ⟨failed, other, member, unfit⟩ :=
            ih (properties.push property)
          · refine .inl ⟨property :: list, inserted, ?_⟩
            rw [List.map_cons, fits, make_eq_ok_iff_pair.1 made]
          · exact .inr ⟨failed, other, .tail _ member, unfit⟩

/-- The values of groups are inserted as if they were not grouped. -/
theorem forM_groups (groups : List (PropertyId × List Datum)) :
    forM groups (fun group => forM group.2 (Properties.insert group.1)) =
      forM (Table.pairs groups) fun pair => Properties.insert pair.1 pair.2 := by
  induction groups with
  | nil => rfl
  | cons group groups ih =>
      rw [List.forM_cons, ih, Table.pairs, Table.pairs, List.flatMap_cons, List.forM_append,
        List.forM_map]

/-- A set is made of the values that are kept, or one of these does not fit. -/
theorem ofGroups_outcome (groups : List (PropertyId × List Datum)) :
    (∃ list, Properties.ofGroups groups = .ok (.ofList list) ∧
      list.map Property.pair = Table.pairs (Properties.kept groups)) ∨
    (∃ error, Properties.ofGroups groups = .error error) ∧
      ∃ group ∈ Properties.kept groups, ∃ value ∈ group.2, Unfit group.1 value := by
  unfold Properties.ofGroups Properties.load
  rw [forM_groups]
  obtain ⟨list, inserted, fits⟩ | ⟨⟨error, stopped, failed⟩, pair, member, unfit⟩ :=
    insertAll_outcome (Table.pairs (Properties.kept groups)) .empty
  · exact .inl ⟨list, by rw [inserted]; rfl, fits⟩
  · obtain ⟨group, isKept, inGroup⟩ := List.mem_flatMap.1 member
    obtain ⟨value, isValue, rfl⟩ := List.mem_map.1 inGroup
    exact .inr ⟨⟨error, by rw [failed]⟩, group, isKept, value, isValue, unfit⟩

/-! ## One change -/

/-- The set has the properties of a list, those of one identifier in the same order. -/
def Holds (properties : Properties) (history : List Property) : Prop :=
  ∀ id, itemsOf Property.id id properties.toList = itemsOf Property.id id history

theorem holds_ofList (list : List Property) : Holds (.ofList list) list :=
  Properties.itemsOf_extend .empty list

end Change

namespace Properties

/-- What a set shows of the properties that were added, in the order in which they came. -/
structure Agrees (properties : Properties) (history : List Property) : Prop where
  toList : properties.toList = sortedBy Property.id history
  get : ∀ id, properties.get id = (itemsOf Property.id id history).map Property.value
  first? : ∀ id, properties.first? id = (itemsOf Property.id id history).head?.map Property.value
  length : properties.length = history.length
  isEmpty : properties.isEmpty ↔ history = []
  size : properties.size = totalSize history

theorem agrees_of_holds {properties : Properties} {history : List Property}
    (holds : Change.Holds properties history) : properties.Agrees history := by
  have ordered : Ordered Property.id properties.toList := properties.ordered
  have sorted := ordered.eq_sortedBy holds
  have reordered : properties.toList.Perm history := sorted ▸ List.mergeSort_perm history _
  have get (id : PropertyId) : properties.get id = (itemsOf Property.id id history).map Property.value :=
    congrArg (List.map Property.value) (holds id)
  refine ⟨sorted, get, fun id => ?_, reordered.length_eq, ?_, ?_⟩
  · rw [first?, get, List.head?_map]
  · rw [isEmpty, List.isEmpty_iff, ← List.length_eq_zero_iff, reordered.length_eq,
      List.length_eq_zero_iff]
  · rw [size_eq_totalSize, totalSize_perm reordered]

end Properties

namespace Change

end Change

end MqttWire
