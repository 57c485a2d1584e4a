import MqttWire.Error

/-! # Topic names

The topic of a PUBLISH is a list of levels between slashes. Empty levels count:
a name with a leading, trailing or doubled slash keeps it.
-/

namespace MqttWire

/-- Characters that no topic name holds: the two wildcards and NUL. -/
def isReservedInTopic (c : Char) : Bool := c == '+' || c == '#' || c == '\x00'

/-- Topic name as levels. -/
structure Topic where
  levels : List String
  /-- There is at least one level. -/
  levels_ne_nil : levels ≠ []
  /-- Levels hold neither slashes nor reserved characters. -/
  clean : ∀ level ∈ levels, ∀ c ∈ level.toList, c ≠ '/' ∧ isReservedInTopic c = false
  deriving Repr, DecidableEq

namespace Topic

theorem mem_of_mem_splitOn {sep c : Char} {chars part : List Char}
    (isPart : part ∈ chars.splitOn sep) (member : c ∈ part) : c ≠ sep ∧ c ∈ chars := by
  induction chars generalizing part with
  | nil =>
      simp only [List.splitOn_nil, List.mem_singleton] at isPart
      simp [isPart] at member
  | cons head tail ih =>
      rw [List.splitOn_cons_eq_if_modifyHead] at isPart
      split at isPart
      · rcases List.mem_cons.1 isPart with rfl | isPart
        · simp at member
        · exact ⟨(ih isPart member).1, .tail _ (ih isPart member).2⟩
      · rename_i other
        cases parts : tail.splitOn sep with
        | nil => simp [parts] at isPart
        | cons first others =>
            rw [parts] at ih isPart
            rcases List.mem_cons.1 isPart with rfl | isPart
            · rcases List.mem_cons.1 member with rfl | member
              · exact ⟨by simpa using other, .head _⟩
              · exact ⟨(ih (.head _) member).1, .tail _ (ih (.head _) member).2⟩
            · exact ⟨(ih (.tail _ isPart) member).1, .tail _ (ih (.tail _ isPart) member).2⟩

/-- Names that a topic can have: no character is reserved. -/
def IsName (name : String) : Prop :=
  ∀ c ∈ name.toList, c ≠ '+' ∧ c ≠ '#' ∧ c ≠ '\x00'

theorem isName_iff {name : String} :
    IsName name ↔ name.toList.any isReservedInTopic = false := by
  simp [IsName, isReservedInTopic, and_assoc]

/-- The topic of a name, split at its slashes. -/
def ofName (name : String) (isName : IsName name) : Topic where
  levels := (name.toList.splitOn '/').map String.ofList
  levels_ne_nil := by simp [List.splitOn_ne_nil]
  clean := by
    intro level isLevel c member
    obtain ⟨part, isPart, rfl⟩ := List.mem_map.1 isLevel
    rw [String.toList_ofList] at member
    obtain ⟨notSlash, inName⟩ := mem_of_mem_splitOn isPart member
    refine ⟨notSlash, ?_⟩
    simpa using List.any_eq_false.1 (isName_iff.1 isName) c inName

/-- Split a name at its slashes. A name with a reserved character is refused. -/
def parse (name : String) : Except Error Topic :=
  if reserved : name.toList.any isReservedInTopic then .error (Fault.invalidTopic name)
  else .ok (ofName name (isName_iff.2 (by simpa using reserved)))

def empty : Topic where
  levels := [""]
  levels_ne_nil := by simp
  clean := by simp

instance : Inhabited Topic := ⟨empty⟩

/-- Name of the topic: its levels with slashes between them. -/
def name (topic : Topic) : String :=
  "/".intercalate topic.levels

/-- Put out a level with its position, behind a slash unless it is the first. -/
def putLevel (written : String) : String × Nat → String
  | (level, 0) => written ++ level
  | (level, _ + 1) => written ++ "/" ++ level

/-- The levels put out one after the other. -/
def display (topic : Topic) : String := topic.levels.zipIdx.foldl putLevel ""

instance : ToString Topic := ⟨display⟩

/-- Length of the name in bytes: that of the levels and of the slashes between
    them. -/
def length (topic : Topic) : Nat :=
  topic.levels.foldr (fun level total => level.utf8ByteSize + total) (topic.levels.length - 1)

def isEmpty (topic : Topic) : Bool := topic.length == 0

end Topic

end MqttWire
