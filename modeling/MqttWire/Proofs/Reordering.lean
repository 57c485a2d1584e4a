import MqttWire.Json.Record

/-! # JSON up to the order of members

The members of a JSON object come in whatever order its reader visits them, at
every level. What is read from a value that was written must not depend on it,
so that to read is described for all orders at once. Readers of records go by
names, which are found in any order as long as no two members share one.
-/

namespace MqttWire.Json

open RecordReader (occurrences)

mutual

/-- The other value is the same but for the order of members. -/
inductive Reordered : Json → Json → Prop where
  | null : Reordered .null .null
  | bool (value : Bool) : Reordered (.bool value) (.bool value)
  | number (value : Nat) : Reordered (.number value) (.number value)
  | string (value : String) : Reordered (.string value) (.string value)
  | array {items items' : List Json} (each : ItemsReordered items items') :
      Reordered (.array items) (.array items')
  | object {members members' others : List (String × Json)}
      (each : MembersReordered members members') (perm : members'.Perm others) :
      Reordered (.object members) (.object others)

/-- Item for item. -/
inductive ItemsReordered : List Json → List Json → Prop where
  | nil : ItemsReordered [] []
  | cons {json other : Json} {items items' : List Json} (head : Reordered json other)
      (tail : ItemsReordered items items') : ItemsReordered (json :: items) (other :: items')

/-- Member for member, under the same names. -/
inductive MembersReordered : List (String × Json) → List (String × Json) → Prop where
  | nil : MembersReordered [] []
  | cons {name : String} {json other : Json} {members members' : List (String × Json)}
      (head : Reordered json other) (tail : MembersReordered members members') :
      MembersReordered ((name, json) :: members) ((name, other) :: members')

end

mutual

theorem Reordered.refl : ∀ json, Reordered json json
  | .null => .null
  | .bool value => .bool value
  | .number value => .number value
  | .string value => .string value
  | .array items => .array (ItemsReordered.refl items)
  | .object members => .object (MembersReordered.refl members) (.refl members)

theorem ItemsReordered.refl : ∀ items, ItemsReordered items items
  | [] => .nil
  | json :: items => .cons (Reordered.refl json) (ItemsReordered.refl items)

theorem MembersReordered.refl : ∀ members, MembersReordered members members
  | [] => .nil
  | (_, json) :: members => .cons (Reordered.refl json) (MembersReordered.refl members)

end

/-! ## Values -/

/-- The value is read from the JSON value, in whatever order members stand. -/
def Reads (read : Json → Outcome α) (json : Json) (value : α) : Prop :=
  ∀ ⦃other⦄, Reordered json other → read other = .ok value

section Values

variable {read : Json → Outcome α} {json : Json} {value : α}

theorem Reads.map (reads : Reads read json value) (f : α → β) :
    Reads (fun json => f <$> read json) json (f value) := by
  intro other reordered
  simp only [reads reordered]
  rfl

theorem reads_toBool (value : Bool) : Reads toBool (.bool value) value := by
  rintro _ ⟨⟩
  rfl

theorem reads_toNatBelow {bound value : Nat} (small : value < bound) :
    Reads (toNatBelow bound) (.number value) value := by
  rintro _ ⟨⟩
  exact if_pos small

theorem reads_toByte (value : UInt8) : Reads toByte (.number value.toNat) value := by
  have number := (reads_toNatBelow value.toNat_lt).map UInt8.ofNat
  rwa [UInt8.ofNat_toNat] at number

theorem reads_toUInt16 (value : UInt16) : Reads toUInt16 (.number value.toNat) value := by
  have number := (reads_toNatBelow value.toNat_lt).map UInt16.ofNat
  rwa [UInt16.ofNat_toNat] at number

theorem reads_toUInt32 (value : UInt32) : Reads toUInt32 (.number value.toNat) value := by
  have number := (reads_toNatBelow value.toNat_lt).map UInt32.ofNat
  rwa [UInt32.ofNat_toNat] at number

theorem reads_toText (value : String) : Reads toText (.string value) value := by
  rintro _ ⟨⟩
  rfl

theorem reads_toListOf {write : α → Json} {values : List α}
    (each : ∀ value ∈ values, Reads read (write value) value) :
    Reads (toListOf read) (.array (values.map write)) values := by
  intro other reordered
  cases reordered with
  | @array _ items reordered =>
      rw [toListOf]
      induction values generalizing items with
      | nil =>
          cases reordered
          rfl
      | cons value values ih =>
          cases reordered with
          | cons head tail =>
              have first := each value (.head _) head
              have others := ih (fun value member => each value (.tail _ member)) tail
              rw [List.mapM_cons, first, others]
              rfl

theorem reads_toBytes (bytes : Bytes) : Reads toBytes (ofBytes bytes) bytes := by
  intro other reordered
  have listed := reads_toListOf (fun value _ => reads_toByte value) reordered
  cases reordered
  exact listed

theorem reads_toNullable {write : α → Json} (each : ∀ value, Reads read (write value) value)
    (notNull : ∀ value, write value ≠ .null) (value? : Option α) :
    Reads (toNullable read) (ofOption write value?) value? := by
  intro other reordered
  cases value? with
  | none =>
      cases reordered
      rfl
  | some value =>
      have found := each value reordered
      have isWritten : write value = ofOption write (some value) := rfl
      cases other with
      | null =>
          rw [← isWritten] at reordered
          generalize written : write value = json at reordered
          cases reordered
          exact absurd written (notNull value)
      | _ =>
          rw [toNullable, found]
          · rfl
          · nofun

/-- A choice with what belongs to it. -/
theorem Reordered.toChoice {name : String} {content other : Json}
    (reordered : Reordered (.object [(name, content)]) other) :
    ∃ content', Reordered content content' ∧ other.toChoice = .ok (name, content') := by
  cases reordered with
  | object each perm =>
      cases each with
      | cons head tail =>
          cases tail
          cases List.perm_singleton.1 perm.symm
          exact ⟨_, head, rfl⟩

end Values

/-! ## Records -/

section Members

variable {members members' others : List (String × Json)} {name : String} {json : Json}

theorem MembersReordered.map_fst (each : MembersReordered members members') :
    members'.map Prod.fst = members.map Prod.fst := by
  induction members generalizing members' with
  | nil =>
      cases each
      rfl
  | cons head members ih =>
      cases each with
      | cons _ tail => simp [ih tail]

theorem MembersReordered.exists_of_mem (each : MembersReordered members members')
    (member : (name, json) ∈ members) :
    ∃ other, Reordered json other ∧ (name, other) ∈ members' := by
  induction members generalizing members' with
  | nil => cases member
  | cons head members ih =>
      cases each with
      | cons head tail =>
          rcases List.mem_cons.1 member with same | member
          · cases same
            exact ⟨_, head, .head _⟩
          · obtain ⟨other, reordered, member'⟩ := ih tail member
            exact ⟨other, reordered, .tail _ member'⟩

theorem filter_zipIdx_eq_nil (absent : name ∉ members.map Prod.fst) (first : Nat) :
    (members.zipIdx first).filter (·.1.1 == name) = [] := by
  refine List.filter_eq_nil_iff.2 fun indexed member isName => absent ?_
  have listed := List.mem_map_of_mem (f := Prod.fst) (List.fst_mem_of_mem_zipIdx member)
  rwa [beq_iff_eq.1 isName] at listed

/-- A name that no two members share occurs in one place. -/
theorem occurrences_of_mem (distinct : (members.map Prod.fst).Nodup)
    (member : (name, json) ∈ members) : ∃ place, occurrences name members = [(json, place)] := by
  obtain ⟨front, rest, rfl⟩ := List.append_of_mem member
  rw [List.map_append, List.map_cons, List.nodup_append, List.nodup_cons] at distinct
  obtain ⟨-, ⟨notBehind, -⟩, apart⟩ := distinct
  have notBefore : name ∉ front.map Prod.fst := fun before =>
    apart name before name (.head _) rfl
  refine ⟨front.length, ?_⟩
  simp [occurrences, List.zipIdx_append, List.zipIdx_cons, filter_zipIdx_eq_nil notBefore,
    filter_zipIdx_eq_nil notBehind]

/-- A name finds its member in any order. -/
theorem Reordered.exists_occurrence (reordered : Reordered (.object members) (.object others))
    (distinct : (members.map Prod.fst).Nodup) (member : (name, json) ∈ members) :
    ∃ other place, Reordered json other ∧ occurrences name others = [(other, place)] := by
  cases reordered with
  | object each perm =>
      obtain ⟨other, reordered, member'⟩ := each.exists_of_mem member
      have distinct' : (others.map Prod.fst).Nodup := by
        rw [← (perm.map Prod.fst).nodup_iff, each.map_fst]
        exact distinct
      obtain ⟨place, found⟩ := occurrences_of_mem distinct' (perm.mem_iff.1 member')
      exact ⟨other, place, reordered, found⟩

end Members

namespace RecordReader

/-- What is read from the members, in whatever order they stand. -/
def Reads (reader : RecordReader α) (members : List (String × Json)) (value : α) : Prop :=
  ∀ ⦃others⦄, Reordered (.object members) (.object others) → reader.read others = .value value

variable {reader : RecordReader α} {members : List (String × Json)} {value : α}

theorem Reads.map (reads : reader.Reads members value) (f : α → β) :
    (f <$> reader).Reads members (f value) := by
  intro others reordered
  simp only [Functor.map, Seq.seq, reads reordered]

theorem Reads.seq {build : RecordReader (α → β)} {f : α → β} (first : build.Reads members f)
    (second : reader.Reads members value) : (build <*> reader).Reads members (f value) := by
  intro others reordered
  simp only [Seq.seq, first reordered, second reordered]

/-- The members of a record are written out, so that `simp` finds one among them. -/
theorem reads_memberOr {absent : Option α} {name : String} {json : Json}
    {read : Json → Outcome α} (reads : Json.Reads read json value)
    (distinct : (members.map Prod.fst).Nodup) (member : (name, json) ∈ members) :
    (memberOr absent name read).Reads members value := by
  intro others reordered
  obtain ⟨other, place, reordered', found⟩ := reordered.exists_occurrence distinct member
  simp only [memberOr, found, reads reordered']

theorem Reads.toRecord (reads : reader.Reads members value) :
    Json.Reads (toRecord reader) (.object members) value := by
  intro other reordered
  cases reordered with
  | object each perm =>
      have found := reads (.object each perm)
      simp only [Json.toRecord, readNamed, found]

end RecordReader

end MqttWire.Json
