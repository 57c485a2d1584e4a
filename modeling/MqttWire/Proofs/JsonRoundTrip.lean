import Mathlib.Data.List.Perm.Basic
import MqttWire.Json.Packet
import MqttWire.Proofs.Insertion
import MqttWire.Proofs.PropertyHistory
import MqttWire.Proofs.Reordering
import MqttWire.Proofs.TopicName

/-! # JSON and back

Whatever is written as JSON is read again, however the members of its objects
are ordered in the meantime. A property set is not read as it was written: its
groups are checked and inserted value by value, and a topic is split again. That
nothing is lost there is what is known of tables and of names.
-/

namespace MqttWire

open Json (Reads Reordered)
open Json.RecordReader (reads_memberOr)
open Json.RecordReader.Reads (toRecord)

/-! ## Choices -/

/-- What belongs to a choice is read as the choice says. -/
theorem Json.reads_choice {choices : List (String × β)} {choice : β} {name : String}
    (use : β → Json → Outcome α) {content : Json} {value : α}
    (known : choose choices name = .ok choice) (reads : Reads (use choice) content value) :
    Reads (fun json => do
      let (name, content) ← json.toChoice
      let choice ← choose choices name
      use choice content) (.object [(name, content)]) value := by
  intro other reordered
  obtain ⟨content', same, chosen⟩ := reordered.toChoice
  simp only [chosen, bind, Except.bind, known]
  exact reads same

theorem QoS.reads (qos : QoS) : Reads (Json.toNamed names) qos.toJson qos := by
  cases qos <;> (rintro _ ⟨⟩; rfl)

theorem RetainHandling.reads (handling : RetainHandling) :
    Reads (Json.toNamed names) handling.toJson handling := by
  cases handling <;> (rintro _ ⟨⟩; rfl)

/-! ## Data values -/

theorem TextPair.reads (pair : TextPair) :
    Reads ofJson (.object [("key", .string pair.key), ("value", .string pair.value)]) pair := by
  refine toRecord (.seq (.map ?key _) ?value)
  case key => refine reads_memberOr (Json.reads_toText pair.key) ?_ ?_ <;> simp
  case value => refine reads_memberOr (Json.reads_toText pair.value) ?_ ?_ <;> simp

theorem Datum.reads_as (kind : DatumKind) {name : String} {content : Json} {datum : Datum}
    (known : Json.choose kindNames name = .ok kind)
    (reads : Reads (fun json => ofJsonAs json kind) content datum) :
    Reads ofJson (.object [(name, content)]) datum :=
  Json.reads_choice (fun kind json => ofJsonAs json kind) known reads

/-- A number is within the bounds of its type if it is within its own limit. -/
theorem Datum.reads {datum : Datum} (small : datum.overflow? = none) :
    Reads ofJson datum.toJson datum := by
  cases datum with
  | byte value => exact reads_as .byte rfl ((Json.reads_toByte value).map _)
  | uint16 value => exact reads_as .uint16 rfl ((Json.reads_toUInt16 value).map _)
  | uint32 value => exact reads_as .uint32 rfl ((Json.reads_toUInt32 value).map _)
  | varInt value =>
      have limit : value ≤ maxVarInt := overflow_eq_none_iff.1 small value rfl
      have below : value < 4294967296 := Nat.lt_of_le_of_lt limit (by decide)
      exact reads_as .varInt rfl ((Json.reads_toNatBelow below).map _)
  | text value => exact reads_as .text rfl ((Json.reads_toText value).map _)
  | pair value => exact reads_as .pair rfl (value.reads.map _)
  | binary value => exact reads_as .binary rfl ((Json.reads_toBytes value).map _)

/-! ## Property sets -/

/-- The values of an identifier, under its name. -/
def PropertyId.groupToJson (group : PropertyId × List Datum) : String × Json :=
  (group.1.name, .array (group.2.map Datum.toJson))

theorem PropertyId.choose_name (id : PropertyId) : Json.choose names id.name = .ok id := by
  cases id <;> rfl

namespace Properties

theorem toJson_eq (properties : Properties) :
    properties.toJson =
      .object [("entries", .object (properties.table.map PropertyId.groupToJson))] := by
  rw [toJson, table, List.map_map]
  rfl

theorem mapM_of_forall₂ {f : α → Json.Outcome β} {items : List α} {values : List β}
    (each : List.Forall₂ (fun item value => f item = .ok value) items values) :
    items.mapM f = .ok values := by
  induction each with
  | nil => rfl
  | cons first _ ih =>
      rw [List.mapM_cons, first, ih]
      rfl

/-- A group is read from its member, as long as its numbers are within their limit. -/
theorem reads_group {id : PropertyId} {values : List Datum} {other : Json}
    (small : ∀ value ∈ values, value.overflow? = none)
    (reordered : Reordered (.array (values.map Datum.toJson)) other) :
    groupOfJson (id.name, other) = .ok (id, values) := by
  have listed :=
    Json.reads_toListOf (fun value inGroup => Datum.reads (small value inGroup)) reordered
  simp only [groupOfJson, PropertyId.choose_name, listed]
  rfl

/-- The groups that were written are read, in the order in which they stand. -/
theorem exists_groupsOfJson {table : Table}
    (small : ∀ group ∈ table, ∀ value ∈ group.2, value.overflow? = none) {json : Json}
    (reordered : Reordered (.object (table.map PropertyId.groupToJson)) json) :
    ∃ groups, groupsOfJson json = .ok groups ∧ groups.Perm table := by
  cases reordered with
  | @object _ members others each perm =>
      have read :
          List.Forall₂ (fun member group => groupOfJson member = .ok group) members table := by
        clear perm
        induction table generalizing members with
        | nil =>
            cases each
            exact .nil
        | cons group table ih =>
            cases each with
            | cons head tail =>
                exact .cons (reads_group (small group (.head _)) head)
                  (ih (fun group member => small group (.tail _ member)) tail)
      obtain ⟨groups, read, perm'⟩ := List.perm_comp_forall₂ perm.symm read
      exact ⟨groups, mapM_of_forall₂ read, perm'⟩

/-- Of the groups of a set all are kept, as there is one for each identifier. -/
theorem kept_of_perm {properties : Properties} {groups : List (PropertyId × List Datum)}
    (perm : groups.Perm properties.table) : kept groups = properties.table := by
  have same (id : PropertyId) :
      itemsOf Prod.fst id groups = itemsOf Prod.fst id properties.table := by
    have reordered : (itemsOf Prod.fst id groups).Perm (itemsOf Prod.fst id properties.table) :=
      perm.filter _
    rw [itemsOf_table] at reordered ⊢
    by_cases absent : (properties.get id).isEmpty
    · rw [if_pos absent] at reordered ⊢
      exact reordered.eq_nil
    · rw [if_neg absent] at reordered ⊢
      exact List.perm_singleton.1 reordered
  have only (id : PropertyId) : (groups.filter (·.1 == id)).getLast?.toList =
      itemsOf Prod.fst id properties.table := by
    rw [← itemsOf, same, itemsOf_table]
    split <;> rfl
  simp only [kept, only]
  exact properties.ascending_table.ordered.flatMap_all

/-- The groups of a set pass their checks and make up the set. -/
theorem ofGroups_of_perm {properties : Properties} {groups : List (PropertyId × List Datum)}
    (perm : groups.Perm properties.table) : ofGroups groups = .ok properties := by
  have outcome := Change.ofGroups_outcome groups
  rw [kept_of_perm perm] at outcome
  obtain ⟨list, loaded, fits⟩ | ⟨-, group, member, value, inGroup, unfit⟩ := outcome
  · have same : list = properties.toList :=
      Property.pair_injective.list_map (fits.trans properties.pairs_table)
    rw [loaded, same, ofList_toList]
  · obtain ⟨property, sameId, sameValue⟩ := properties.exists_of_mem_table member inGroup
    exact absurd unfit (Change.not_unfit_of_pair (Prod.ext sameId sameValue))

theorem reads (properties : Properties) : Reads ofJson properties.toJson properties := by
  have small : ∀ group ∈ properties.table, ∀ value ∈ group.2, value.overflow? = none := by
    intro group member value inGroup
    obtain ⟨property, -, rfl⟩ := properties.exists_of_mem_table member inGroup
    exact property.overflow_value
  intro other reordered
  rw [toJson_eq] at reordered
  cases reordered with
  | object each perm =>
      cases each with
      | cons head tail =>
          cases tail
          cases List.perm_singleton.1 perm.symm
          obtain ⟨groups, read, perm'⟩ := exists_groupsOfJson small head
          simp [ofJson, Json.toRecord, Json.RecordReader.readNamed, Json.RecordReader.member,
            Json.RecordReader.memberOr, Json.RecordReader.occurrences, read, bind, Except.bind, ofGroups_of_perm perm',
            Json.checked]

end Properties

/-! ## Packets -/

/-- The name of a topic is split where it was joined. -/
theorem Topic.reads (topic : Topic) : Reads ofJson topic.toJson topic := by
  rintro _ ⟨⟩
  have parsed : parse topic.name = .ok topic := parse_eq_ok.2 rfl
  simp [ofJson, Json.toText, bind, Except.bind, parsed, Json.checked]

theorem Will.reads (will : Will) : Reads ofJson will.toJson will := by
  refine toRecord (.seq (.seq (.seq (.seq (.map ?qos _) ?retain) ?properties) ?topic) ?payload)
  case qos => refine reads_memberOr will.qos.reads ?_ ?_ <;> simp
  case retain => refine reads_memberOr (Json.reads_toBool _) ?_ ?_ <;> simp
  case properties => refine reads_memberOr will.properties.reads ?_ ?_ <;> simp
  case topic => refine reads_memberOr (Json.reads_toText _) ?_ ?_ <;> simp
  case payload => refine reads_memberOr (Json.reads_toBytes _) ?_ ?_ <;> simp

theorem Connect.reads (packet : Connect) : Reads ofJson packet.toJson packet := by
  refine toRecord (.seq (.seq (.seq (.seq (.seq (.seq (.map ?cleanStart _) ?keepAlive) ?properties)
    ?clientId) ?will) ?username) ?password)
  case cleanStart => refine reads_memberOr (Json.reads_toBool _) ?_ ?_ <;> simp
  case keepAlive => refine reads_memberOr (Json.reads_toUInt16 _) ?_ ?_ <;> simp
  case properties => refine reads_memberOr packet.properties.reads ?_ ?_ <;> simp
  case clientId => refine reads_memberOr (Json.reads_toText _) ?_ ?_ <;> simp
  case will =>
    have nullable := Json.reads_toNullable Will.reads (fun _ => nofun) packet.will
    refine reads_memberOr nullable ?_ ?_ <;> simp
  case username =>
    have nullable := Json.reads_toNullable Json.reads_toText (fun _ => nofun) packet.username
    refine reads_memberOr nullable ?_ ?_ <;> simp
  case password =>
    have nullable := Json.reads_toNullable Json.reads_toBytes (fun _ => nofun) packet.password
    refine reads_memberOr nullable ?_ ?_ <;> simp

theorem Connack.reads (packet : Connack) : Reads ofJson packet.toJson packet := by
  refine toRecord (.seq (.seq (.map ?sessionPresent _) ?reasonCode) ?properties)
  case sessionPresent => refine reads_memberOr (Json.reads_toBool _) ?_ ?_ <;> simp
  case reasonCode => refine reads_memberOr (Json.reads_toByte _) ?_ ?_ <;> simp
  case properties => refine reads_memberOr packet.properties.reads ?_ ?_ <;> simp

theorem Publish.reads (packet : Publish) : Reads ofJson packet.toJson packet := by
  refine toRecord (.seq (.seq (.seq (.seq (.seq (.seq (.map ?dup _) ?qos) ?retain) ?topic)
    ?packetId) ?properties) ?payload)
  case dup => refine reads_memberOr (Json.reads_toBool _) ?_ ?_ <;> simp
  case qos => refine reads_memberOr packet.qos.reads ?_ ?_ <;> simp
  case retain => refine reads_memberOr (Json.reads_toBool _) ?_ ?_ <;> simp
  case topic => refine reads_memberOr packet.topic.reads ?_ ?_ <;> simp
  case packetId => refine reads_memberOr (Json.reads_toUInt16 _) ?_ ?_ <;> simp
  case properties => refine reads_memberOr packet.properties.reads ?_ ?_ <;> simp
  case payload => refine reads_memberOr (Json.reads_toBytes _) ?_ ?_ <;> simp

theorem SubscriptionOptions.reads (options : SubscriptionOptions) :
    Reads ofJson options.toJson options := by
  refine toRecord (.seq (.seq (.seq (.map ?maxQoS _) ?noLocal) ?retainAsPublished) ?retainHandling)
  case maxQoS => refine reads_memberOr options.maxQoS.reads ?_ ?_ <;> simp
  case noLocal => refine reads_memberOr (Json.reads_toBool _) ?_ ?_ <;> simp
  case retainAsPublished => refine reads_memberOr (Json.reads_toBool _) ?_ ?_ <;> simp
  case retainHandling => refine reads_memberOr options.retainHandling.reads ?_ ?_ <;> simp

theorem SubscriptionFilter.reads (filter : SubscriptionFilter) :
    Reads ofJson filter.toJson filter := by
  refine toRecord (.seq (.map ?filter _) ?options)
  case filter => refine reads_memberOr (Json.reads_toText _) ?_ ?_ <;> simp
  case options => refine reads_memberOr filter.options.reads ?_ ?_ <;> simp

theorem Subscribe.reads (packet : Subscribe) : Reads ofJson packet.toJson packet := by
  refine toRecord (.seq (.seq (.map ?packetId _) ?properties) ?filters)
  case packetId => refine reads_memberOr (Json.reads_toUInt16 _) ?_ ?_ <;> simp
  case properties => refine reads_memberOr packet.properties.reads ?_ ?_ <;> simp
  case filters =>
    have listed :=
      Json.reads_toListOf fun (filter : SubscriptionFilter) (_ : filter ∈ packet.filters) =>
        filter.reads
    refine reads_memberOr listed ?_ ?_ <;> simp

theorem Suback.reads (packet : Suback) : Reads ofJson packet.toJson packet := by
  refine toRecord (.seq (.seq (.map ?packetId _) ?properties) ?reasons)
  case packetId => refine reads_memberOr (Json.reads_toUInt16 _) ?_ ?_ <;> simp
  case properties => refine reads_memberOr packet.properties.reads ?_ ?_ <;> simp
  case reasons =>
    have listed := Json.reads_toListOf fun (code : ReasonCode) (_ : code ∈ packet.reasons) =>
      Json.reads_toByte code
    refine reads_memberOr listed ?_ ?_ <;> simp [Json.ofBytes]

theorem Disconnect.reads (packet : Disconnect) : Reads ofJson packet.toJson packet := by
  refine toRecord (.seq (.map ?reasonCode _) ?properties)
  case reasonCode => refine reads_memberOr (Json.reads_toByte _) ?_ ?_ <;> simp
  case properties => refine reads_memberOr packet.properties.reads ?_ ?_ <;> simp

namespace Packet

theorem reads_as {read : Json → Json.Outcome Packet} {name : String} {content : Json}
    {packet : Packet} (known : Json.choose jsonReaders name = .ok read)
    (reads : Reads read content packet) :
    Reads ofJson (.object [(name, content)]) packet :=
  Json.reads_choice (fun (read : Json → Json.Outcome Packet) json => read json) known reads

theorem reads (packet : Packet) : Reads ofJson packet.toJson packet := by
  cases packet with
  | connect packet => exact reads_as rfl (packet.reads.map connect)
  | connack packet => exact reads_as rfl (packet.reads.map connack)
  | publish packet => exact reads_as rfl (packet.reads.map publish)
  | subscribe packet => exact reads_as rfl (packet.reads.map subscribe)
  | suback packet => exact reads_as rfl (packet.reads.map suback)
  | disconnect packet => exact reads_as rfl (packet.reads.map disconnect)

/-- Every packet, property set and topic is read from the JSON it is written as, and
    from every other order of the members of its objects. -/
theorem ofJson_toJson_reordered :
    (∀ packet : Packet, ofJson packet.toJson = .ok packet ∧
      ∀ other, Reordered packet.toJson other → ofJson other = .ok packet) ∧
    (∀ properties : Properties, Properties.ofJson properties.toJson = .ok properties ∧
      ∀ other, Reordered properties.toJson other → Properties.ofJson other = .ok properties) ∧
    ∀ topic : Topic, Topic.ofJson topic.toJson = .ok topic := by
  refine ⟨fun packet => ⟨packet.reads (.refl _), packet.reads⟩,
    fun properties => ⟨properties.reads (.refl _), properties.reads⟩, fun topic => ?_⟩
  exact topic.reads (.refl _)

end Packet

end MqttWire
