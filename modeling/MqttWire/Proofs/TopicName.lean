import MqttWire.Topic

/-! # Topics and their names

A topic is kept as levels and written as a name. The two determine each other,
because no level holds a slash, and the length added up from the levels is that
of the name.
-/

namespace MqttWire.Topic

theorem splitOn_name (topic : Topic) :
    topic.name.toList.splitOn '/' = topic.levels.map String.toList := by
  rw [Topic.name, String.toList_intercalate]
  refine List.splitOn_intercalate '/' ?_ ?_
  · intro chars isLevel slash
    obtain ⟨level, member, rfl⟩ := List.mem_map.1 isLevel
    exact (topic.clean level member '/' slash).1 rfl
  · simpa using topic.levels_ne_nil

theorem mem_intercalate {c : Char} {levels : List (List Char)}
    (member : c ∈ ['/'].intercalate levels) : c = '/' ∨ ∃ level ∈ levels, c ∈ level := by
  induction levels with
  | nil => cases member
  | cons first others ih =>
      cases others with
      | nil => exact .inr ⟨first, .head _, by simpa using member⟩
      | cons second others =>
          rw [List.intercalate_cons_cons, List.append_assoc, List.mem_append] at member
          rcases member with inFirst | member
          · exact .inr ⟨first, .head _, inFirst⟩
          · rcases List.mem_cons.1 member with rfl | inOthers
            · exact .inl rfl
            · obtain isSlash | ⟨level, isLevel, inLevel⟩ := ih inOthers
              · exact .inl isSlash
              · exact .inr ⟨level, .tail _ isLevel, inLevel⟩

theorem isName_name (topic : Topic) : IsName topic.name := by
  rw [isName_iff, List.any_eq_false]
  intro c member
  rw [Topic.name, String.toList_intercalate] at member
  obtain rfl | ⟨_, inName, inLevel⟩ := mem_intercalate member
  · decide
  · obtain ⟨level, isLevel, rfl⟩ := List.mem_map.1 inName
    rw [(topic.clean level isLevel c inLevel).2]
    decide

@[simp] theorem name_ofName {name : String} (isName : IsName name) :
    (ofName name isName).name = name := by
  have toList_ofList : String.toList ∘ String.ofList = id := funext fun _ => String.toList_ofList
  rw [← String.toList_inj, Topic.name, ofName, String.toList_intercalate, List.map_map,
    toList_ofList, List.map_id]
  exact List.intercalate_splitOn '/'

@[simp] theorem ofName_name (topic : Topic) : ofName topic.name topic.isName_name = topic := by
  have ofList_toList : String.ofList ∘ String.toList = id := funext fun _ => String.ofList_toList
  have sameLevels : (topic.name.toList.splitOn '/').map String.ofList = topic.levels := by
    rw [splitOn_name, List.map_map, ofList_toList, List.map_id]
  cases topic
  rw [ofName, Topic.mk.injEq]
  exact sameLevels

theorem ofName_eq {name : String} {topic : Topic} (isName : IsName name)
    (same : topic.name = name) : ofName name isName = topic := by
  subst same
  exact topic.ofName_name

theorem parse_of_isName {name : String} (isName : IsName name) :
    parse name = .ok (ofName name isName) :=
  dif_neg (by simp [isName_iff.1 isName])

theorem isName_of_parse {name : String} {topic : Topic} (parsed : parse name = .ok topic) :
    IsName name := by
  unfold parse at parsed
  split at parsed
  case isTrue => cases parsed
  case isFalse unreserved => exact isName_iff.2 (Bool.not_eq_true _ ▸ unreserved)

theorem parse_eq_ok {name : String} {topic : Topic} :
    parse name = .ok topic ↔ topic.name = name := by
  constructor
  · intro parsed
    have isName := isName_of_parse parsed
    rw [parse_of_isName isName] at parsed
    cases parsed
    exact name_ofName isName
  · rintro rfl
    rw [parse_of_isName topic.isName_name, ofName_name]

/-! ## Length -/

theorem foldr_utf8ByteSize_succ (levels : List String) (base : Nat) :
    levels.foldr (fun level total => level.utf8ByteSize + total) (base + 1) =
      levels.foldr (fun level total => level.utf8ByteSize + total) base + 1 := by
  induction levels with
  | nil => rfl
  | cons level levels ih => simp only [List.foldr_cons, ih, Nat.add_assoc]

theorem utf8ByteSize_intercalate (first : String) (others : List String) :
    ("/".intercalate (first :: others)).utf8ByteSize =
      (first :: others).foldr (fun level total => level.utf8ByteSize + total) others.length := by
  induction others generalizing first with
  | nil => simp [String.intercalate_singleton]
  | cons second others ih =>
      have slash : "/".utf8ByteSize = 1 := rfl
      rw [String.intercalate_cons_cons, String.utf8ByteSize_append, String.utf8ByteSize_append, ih,
        slash, List.length_cons, foldr_utf8ByteSize_succ]
      simp only [List.foldr_cons]
      omega

/-- The length added up from the levels is that of the joined name. -/
theorem utf8ByteSize_name (topic : Topic) : topic.name.utf8ByteSize = topic.length := by
  obtain ⟨levels, levels_ne_nil, clean⟩ := topic
  cases levels with
  | nil => exact absurd rfl levels_ne_nil
  | cons first others => exact utf8ByteSize_intercalate first others

/-! ## Levels -/

theorem length_splitOn (sep : Char) (chars : List Char) :
    (chars.splitOn sep).length = chars.count sep + 1 := by
  induction chars with
  | nil => rfl
  | cons head tail ih =>
      rw [List.splitOn_cons_eq_if_modifyHead, List.count_cons]
      split
      case isTrue => rw [List.length_cons, ih]
      case isFalse => rw [List.length_modifyHead, ih, Nat.add_zero]

theorem foldl_putLevel (levels : List String) (written : String) (index : Nat) :
    (levels.zipIdx (index + 1)).foldl putLevel written = "/".intercalate (written :: levels) := by
  induction levels generalizing written index with
  | nil => exact String.intercalate_singleton.symm
  | cons level levels ih =>
      rw [List.zipIdx_cons, List.foldl_cons, ih, putLevel, String.intercalate_cons_append,
        String.intercalate_cons_cons]

theorem display_eq_name (topic : Topic) : topic.display = topic.name := by
  obtain ⟨levels, levels_ne_nil, clean⟩ := topic
  cases levels with
  | nil => exact absurd rfl levels_ne_nil
  | cons first others =>
      rw [display, List.zipIdx_cons, List.foldl_cons, foldl_putLevel, putLevel, String.empty_append,
        Topic.name]

/-- What a topic shows of a name. -/
structure Shows (topic : Topic) (name : String) : Prop where
  name_eq : topic.name = name
  toString_eq : toString topic = name
  length_eq : topic.length = name.utf8ByteSize
  levels_ne_nil : topic.levels ≠ []
  /-- Slashes stand between levels only. -/
  no_slash : ∀ level ∈ topic.levels, '/' ∉ level.toList
  length_levels : topic.levels.length = name.toList.count '/' + 1
  isEmpty_iff : topic.isEmpty ↔ name = ""
  eq_empty_iff : topic = .empty ↔ name = ""

theorem shows_name (topic : Topic) : topic.Shows topic.name where
  name_eq := rfl
  toString_eq := topic.display_eq_name
  length_eq := topic.utf8ByteSize_name.symm
  levels_ne_nil := topic.levels_ne_nil
  no_slash level isLevel slash := (topic.clean level isLevel '/' slash).1 rfl
  length_levels := by rw [← length_splitOn, splitOn_name, List.length_map]
  isEmpty_iff := by rw [isEmpty, beq_iff_eq, ← utf8ByteSize_name, String.utf8ByteSize_eq_zero_iff]
  eq_empty_iff := by
    have name_empty : name .empty = "" := String.intercalate_singleton
    constructor
    · rintro rfl
      exact name_empty
    · intro none
      have parsed : parse "" = .ok topic := parse_eq_ok.2 none
      rw [parse_eq_ok.2 name_empty] at parsed
      exact (Except.ok.inj parsed).symm

/-- Names without reserved characters and lists of levels determine each other: a name is split
    into levels, at least one, that make it up again, and any levels are those of their name. -/
theorem names_and_levels :
    (∀ name : String, ((∃ topic, parse name = .ok topic) ↔ IsName name) ∧
      ∀ topic, parse name = .ok topic → topic.Shows name) ∧
    ∀ levels : List String, levels ≠ [] →
      (∀ level ∈ levels, ∀ c ∈ level.toList, c ≠ '/' ∧ c ≠ '+' ∧ c ≠ '#' ∧ c ≠ '\x00') →
      ∃ topic, parse ("/".intercalate levels) = .ok topic ∧ topic.levels = levels := by
  refine ⟨fun name => ⟨⟨?isName, ?parsed⟩, ?shows⟩, ?levels⟩
  case isName =>
    intro parsed
    obtain ⟨topic, parsed⟩ := parsed
    exact isName_of_parse parsed
  case parsed =>
    intro isName
    exact ⟨ofName name isName, parse_of_isName isName⟩
  case shows =>
    intro topic parsed
    rw [← parse_eq_ok.1 parsed]
    exact topic.shows_name
  case levels =>
    intro levels levels_ne_nil clean
    let topic : Topic := ⟨levels, levels_ne_nil, fun level isLevel c member => by
      obtain ⟨notSlash, others⟩ := clean level isLevel c member
      exact ⟨notSlash, by simp [isReservedInTopic, others]⟩⟩
    exact ⟨topic, parse_eq_ok.2 rfl, rfl⟩

/-- A leading, a doubled and a trailing slash each keep the empty level beside them. -/
theorem names_and_levels_slashes :
    let levels : List String := ["", "a", "", "b", ""]
    ∃ topic, parse "/a//b/" = .ok topic ∧ topic.Shows "/a//b/" ∧
      parse ("/".intercalate levels) = .ok topic ∧ topic.levels = levels := by
  intro levels
  obtain ⟨ofName, ofLevels⟩ := names_and_levels
  obtain ⟨topic, parsed, same⟩ := ofLevels levels (by simp [levels]) (by simp [levels])
  have parsed' : parse "/a//b/" = .ok topic := parsed
  exact ⟨topic, parsed', (ofName "/a//b/").2 topic parsed', parsed, same⟩

end MqttWire.Topic
