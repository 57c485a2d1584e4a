import MqttWire.Properties

/-! # Property sets and the lists they come from

Adding properties keeps every one of them, and a list whose identifiers already
ascend is kept as it is. So every property set comes from its own list.
-/

namespace MqttWire.Properties

/-- Identifiers ascend. -/
def Ascending (list : List Property) : Prop :=
  list.Pairwise fun a b => a.id.code ≤ b.id.code

theorem eq_of_toList_eq {properties other : Properties}
    (same : properties.toList = other.toList) : properties = other := by
  cases properties
  cases other
  simpa using same

theorem eq_empty_of_isEmpty {properties : Properties} (isEmpty : properties.isEmpty) :
    properties = .empty := by
  apply eq_of_toList_eq
  exact List.isEmpty_iff.1 isEmpty

theorem place_perm (property : Property) (list : List Property) :
    (place property list).Perm (property :: list) := by
  induction list with
  | nil => exact .refl _
  | cons head tail ih =>
      rw [place]
      split
      · exact .refl _
      · exact (ih.cons head).trans (.swap property head tail)

theorem toList_extend_perm (properties : Properties) (more : List Property) :
    (properties.extend more).toList.Perm (properties.toList ++ more) := by
  induction more generalizing properties with
  | nil =>
      rw [List.append_nil]
      exact .refl _
  | cons property more ih =>
      have pushed : (properties.push property).toList.Perm (property :: properties.toList) :=
        place_perm property properties.toList
      calc ((properties.push property).extend more).toList
        _ |>.Perm ((properties.push property).toList ++ more) := ih (properties.push property)
        _ |>.Perm (property :: properties.toList ++ more) := pushed.append_right more
        _ |>.Perm (properties.toList ++ property :: more) := List.perm_middle.symm

theorem toList_ofList_perm (list : List Property) : (ofList list).toList.Perm list :=
  toList_extend_perm empty list

theorem place_of_largest {property : Property} {list : List Property}
    (largest : ∀ other ∈ list, other.id.code ≤ property.id.code) :
    place property list = list ++ [property] := by
  induction list with
  | nil => rfl
  | cons head tail ih =>
      have notBelow : ¬ property.id.code < head.id.code :=
        Nat.not_lt.2 (largest head List.mem_cons_self)
      rw [place, if_neg notBelow, ih fun other member => largest other (.tail _ member)]
      rfl

theorem toList_extend_of_ascending {properties : Properties} {more : List Property}
    (ascending : Ascending (properties.toList ++ more)) :
    (properties.extend more).toList = properties.toList ++ more := by
  induction more generalizing properties with
  | nil => simp [extend]
  | cons property more ih =>
      have largest : ∀ other ∈ properties.toList, other.id.code ≤ property.id.code :=
        fun other member => (List.pairwise_append.1 ascending).2.2 other member _ List.mem_cons_self
      have pushed : (properties.push property).toList = properties.toList ++ [property] :=
        place_of_largest largest
      have together : (properties.push property).toList ++ more =
          properties.toList ++ property :: more := by
        rw [pushed, List.append_assoc, List.singleton_append]
      have later : ((properties.push property).extend more).toList =
          (properties.push property).toList ++ more := by
        apply ih
        rw [together]
        exact ascending
      exact later.trans together

theorem toList_ofList_of_ascending {list : List Property} (ascending : Ascending list) :
    (ofList list).toList = list :=
  toList_extend_of_ascending (show Ascending (empty.toList ++ list) from ascending)

@[simp] theorem ofList_toList (properties : Properties) :
    ofList properties.toList = properties :=
  eq_of_toList_eq (toList_ofList_of_ascending properties.ordered)

/-! ## Sizes -/

/-- Bytes that properties occupy together. -/
def totalSize (list : List Property) : Nat :=
  list.foldr (fun property total => property.size + total) 0

theorem size_eq_totalSize (properties : Properties) :
    properties.size = totalSize properties.toList := rfl

@[simp] theorem totalSize_nil : totalSize [] = 0 := rfl

@[simp] theorem totalSize_cons (property : Property) (list : List Property) :
    totalSize (property :: list) = property.size + totalSize list := rfl

theorem totalSize_perm {list other : List Property} (reordered : list.Perm other) :
    totalSize list = totalSize other := by
  induction reordered with
  | nil => rfl
  | cons property _ ih => rw [totalSize_cons, totalSize_cons, ih]
  | swap property other _ => simp only [totalSize_cons, Nat.add_left_comm]
  | trans _ _ ih ih' => exact ih.trans ih'

end MqttWire.Properties
