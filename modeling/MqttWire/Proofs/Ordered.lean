import MqttWire.Property.Id
import Mathlib.Data.List.Basic

/-! # Lists in the order of identifiers

Items that belong to identifiers, sorted by them. Such a list is determined by the
items that it has for each identifier. So there is one way to sort a list that
keeps the order of the items of one identifier.
-/

namespace MqttWire

namespace PropertyId

theorem ascending_all : all.Pairwise fun a b => a.code < b.code := by decide

end PropertyId

/-- Identifiers do not descend. -/
def Ordered (idOf : α → PropertyId) (list : List α) : Prop :=
  list.Pairwise fun a b => (idOf a).code ≤ (idOf b).code

/-- The items for an identifier, in the order in which they come. -/
def itemsOf (idOf : α → PropertyId) (id : PropertyId) (list : List α) : List α :=
  list.filter (idOf · == id)

theorem PropertyId.itemsOf_all (id : PropertyId) : itemsOf (fun key => key) id all = [id] := by
  cases id <;> rfl

section Ordered

variable {idOf : α → PropertyId} {item : α} {list first second : List α} {id : PropertyId}

theorem mem_itemsOf : item ∈ itemsOf idOf id list ↔ item ∈ list ∧ idOf item = id := by
  rw [itemsOf, List.mem_filter, beq_iff_eq]

theorem PropertyId.mem_all (id : PropertyId) : id ∈ all := by
  have listed : id ∈ itemsOf (fun key => key) id all := by
    rw [itemsOf_all]
    exact .head _
  exact (mem_itemsOf.1 listed).1

theorem code_le_of_mem {a b : α} (member : a ∈ itemsOf idOf id list)
    (member' : b ∈ itemsOf idOf id list) : (idOf a).code ≤ (idOf b).code := by
  have same : idOf a = idOf b := (mem_itemsOf.1 member).2.trans (mem_itemsOf.1 member').2.symm
  exact Nat.le_of_eq (congrArg PropertyId.code same)

theorem itemsOf_cons (id : PropertyId) (item : α) (list : List α) :
    itemsOf idOf id (item :: list) =
      if idOf item = id then item :: itemsOf idOf id list else itemsOf idOf id list := by
  simp only [itemsOf, List.filter_cons, beq_iff_eq]

theorem itemsOf_append (id : PropertyId) (first second : List α) :
    itemsOf idOf id (first ++ second) = itemsOf idOf id first ++ itemsOf idOf id second :=
  List.filter_append ..

theorem itemsOf_eq_nil (none : ∀ item ∈ list, idOf item ≠ id) : itemsOf idOf id list = [] :=
  List.filter_eq_nil_iff.2 fun item member isOf => none item member (beq_iff_eq.1 isOf)

theorem itemsOf_itemsOf_self (id : PropertyId) (list : List α) :
    itemsOf idOf id (itemsOf idOf id list) = itemsOf idOf id list :=
  List.filter_eq_self.2 fun _ member => beq_iff_eq.2 (mem_itemsOf.1 member).2

theorem itemsOf_itemsOf_of_ne {key : PropertyId} (differ : key ≠ id) (list : List α) :
    itemsOf idOf id (itemsOf idOf key list) = [] :=
  itemsOf_eq_nil fun _ member isOf => differ ((mem_itemsOf.1 member).2.symm.trans isOf)

theorem mem_of_itemsOf_eq (same : ∀ id, itemsOf idOf id first = itemsOf idOf id second)
    (member : item ∈ first) : item ∈ second := by
  have found : item ∈ itemsOf idOf (idOf item) first := mem_itemsOf.2 ⟨member, rfl⟩
  rw [same] at found
  exact (mem_itemsOf.1 found).1

theorem Ordered.head_le {head : α} (ordered : Ordered idOf (head :: list))
    (member : item ∈ head :: list) : (idOf head).code ≤ (idOf item).code := by
  rcases List.mem_cons.1 member with rfl | later
  · exact Nat.le_refl _
  · exact (List.pairwise_cons.1 ordered).1 item later

/-- Lists in order are determined by their items for each identifier. -/
theorem Ordered.eq_of_itemsOf_eq (ordered : Ordered idOf first) (ordered' : Ordered idOf second)
    (same : ∀ id, itemsOf idOf id first = itemsOf idOf id second) : first = second := by
  induction first generalizing second with
  | nil =>
      cases second with
      | nil => rfl
      | cons => exact absurd (mem_of_itemsOf_eq (fun id => (same id).symm) (.head _)) nofun
  | cons head tail ih =>
      cases second with
      | nil => exact absurd (mem_of_itemsOf_eq same (.head _)) nofun
      | cons head' tail' =>
          have below := ordered.head_le (mem_of_itemsOf_eq (fun id => (same id).symm) (.head _))
          have above := ordered'.head_le (mem_of_itemsOf_eq same (.head _))
          have sameId : idOf head' = idOf head :=
            PropertyId.code_injective (Nat.le_antisymm above below)
          have sameHead : head = head' := by
            have found := same (idOf head)
            rw [itemsOf_cons, itemsOf_cons, if_pos rfl, if_pos sameId] at found
            exact List.head_eq_of_cons_eq found
          subst sameHead
          refine congrArg (head :: ·) (ih ordered.of_cons ordered'.of_cons fun id => ?_)
          have found := same id
          simp only [itemsOf_cons] at found
          split at found
          · exact List.tail_eq_of_cons_eq found
          · exact found

theorem ordered_flatMap_all (list : List α) :
    Ordered idOf (PropertyId.all.flatMap fun id => itemsOf idOf id list) := by
  refine List.pairwise_flatMap.2 ⟨fun id _ => ?_, ?_⟩
  · exact List.pairwise_of_forall_mem_list fun _ member _ member' => code_le_of_mem member member'
  · refine PropertyId.ascending_all.imp fun {id id'} below a memberA b memberB => ?_
    rw [(mem_itemsOf.1 memberA).2, (mem_itemsOf.1 memberB).2]
    exact Nat.le_of_lt below

theorem itemsOf_flatMap_all (list : List α) (id : PropertyId) :
    itemsOf idOf id (PropertyId.all.flatMap fun key => itemsOf idOf key list) =
      itemsOf idOf id list := by
  have only (keys : List PropertyId) :
      itemsOf idOf id (keys.flatMap fun key => itemsOf idOf key list) =
        (itemsOf (fun key => key) id keys).flatMap fun key => itemsOf idOf key list := by
    induction keys with
    | nil => rfl
    | cons key keys ih =>
        rw [List.flatMap_cons, itemsOf_append, ih, itemsOf_cons]
        split
        case isTrue isId => rw [List.flatMap_cons, isId, itemsOf_itemsOf_self]
        case isFalse differ => rw [itemsOf_itemsOf_of_ne differ, List.nil_append]
  rw [only, PropertyId.itemsOf_all, List.flatMap_cons, List.flatMap_nil, List.append_nil]

/-- A list in order is made up of its items for each identifier. -/
theorem Ordered.flatMap_all (ordered : Ordered idOf list) :
    (PropertyId.all.flatMap fun id => itemsOf idOf id list) = list :=
  (ordered_flatMap_all list).eq_of_itemsOf_eq ordered (itemsOf_flatMap_all list)

/-! ## Stable sorting -/

/-- Whether an item may stand before another. -/
def isBefore (idOf : α → PropertyId) (item other : α) : Bool :=
  decide ((idOf item).code ≤ (idOf other).code)

theorem isBefore_trans (a b c : α) (first : isBefore idOf a b) (second : isBefore idOf b c) :
    isBefore idOf a c := by
  simp only [isBefore, decide_eq_true_eq] at first second ⊢
  exact Nat.le_trans first second

theorem isBefore_total (a b : α) : isBefore idOf a b || isBefore idOf b a := by
  simp only [isBefore, Bool.or_eq_true, decide_eq_true_eq]
  exact Nat.le_total ..

/-- Sort items by their identifiers, keeping the order of those of one identifier. -/
def sortedBy (idOf : α → PropertyId) (list : List α) : List α :=
  list.mergeSort (isBefore idOf)

theorem ordered_sortedBy (list : List α) : Ordered idOf (sortedBy idOf list) :=
  (List.pairwise_mergeSort isBefore_trans isBefore_total list).imp of_decide_eq_true

theorem itemsOf_sortedBy (id : PropertyId) (list : List α) :
    itemsOf idOf id (sortedBy idOf list) = itemsOf idOf id list := by
  have alike : (itemsOf idOf id list).Pairwise fun a b => isBefore idOf a b := by
    exact List.pairwise_of_forall_mem_list fun _ member _ member' =>
      decide_eq_true (code_le_of_mem member member')
  have kept : (itemsOf idOf id list).Sublist (sortedBy idOf list) :=
    List.sublist_mergeSort isBefore_trans isBefore_total alike List.filter_sublist
  have within := kept.filter (idOf · == id)
  rw [← itemsOf, itemsOf_itemsOf_self] at within
  refine (within.eq_of_length ?_).symm
  exact ((List.mergeSort_perm list _).filter _).length_eq.symm

/-- What is in order and has the items of a list is the sorted list. -/
theorem Ordered.eq_sortedBy (ordered : Ordered idOf first)
    (same : ∀ id, itemsOf idOf id first = itemsOf idOf id list) : first = sortedBy idOf list :=
  ordered.eq_of_itemsOf_eq (ordered_sortedBy list) fun id => by rw [same, itemsOf_sortedBy]

end Ordered

end MqttWire
