import MqttWire.Error

/-! # Drafts

A draft is what a writer has put out so far, and the error that stopped it, if
one did. Drafts are composed by `++`: nothing follows an error.
-/

namespace MqttWire

/-- Bytes put out, and the error that stopped the output. -/
structure Draft where
  bytes : Bytes := []
  error? : Option Error := none
  deriving Repr, DecidableEq

namespace Draft

def append (first second : Draft) : Draft :=
  match first.error? with
  | none => ⟨first.bytes ++ second.bytes, second.error?⟩
  | some _ => first

instance : Append Draft := ⟨append⟩

def empty : Draft := {}

def raw (bytes : Bytes) : Draft := { bytes }

/-- No bytes, stopped by a cause. -/
def fail (fault : Fault) : Draft := { error? := some fault }

def concat (drafts : List Draft) : Draft :=
  drafts.foldr append empty

/-- A draft for a value that may be absent. -/
def optional (value? : Option α) (write : α → Draft) : Draft :=
  match value? with
  | some value => write value
  | none => empty

def within (layer : Layer) (draft : Draft) : Draft :=
  { draft with error? := draft.error?.map (Error.within layer) }

def inField (field : Field) (draft : Draft) : Draft :=
  draft.within (.field field)

/-- Stop with a cause unless a condition holds. -/
def require (condition : Bool) (fault : Fault) : Draft :=
  if condition then empty else fail fault

/-- The bytes, if nothing stopped the output. -/
def toExcept (draft : Draft) : Except Error Bytes :=
  match draft.error? with
  | none => .ok draft.bytes
  | some error => .error error

theorem toExcept_append (first second : Draft) :
    (first ++ second).toExcept =
      first.toExcept.bind fun front => second.toExcept.map (front ++ ·) := by
  obtain ⟨front, _ | error⟩ := first
  · obtain ⟨back, _ | error⟩ := second <;> rfl
  · rfl

theorem toExcept_within (layer : Layer) (draft : Draft) :
    (draft.within layer).toExcept = draft.toExcept.mapError (Error.within layer) := by
  obtain ⟨bytes, _ | error⟩ := draft <;> rfl

@[simp] theorem toExcept_raw (bytes : Bytes) : (raw bytes).toExcept = .ok bytes := rfl

@[simp] theorem toExcept_fail (fault : Fault) :
    (fail fault).toExcept = .error { root := fault } := rfl

@[simp] theorem toExcept_empty : empty.toExcept = .ok [] := rfl

/-! ## Drafts that nothing stopped -/

theorem toExcept_append_eq_ok {first second : Draft} {bytes : Bytes} :
    (first ++ second).toExcept = .ok bytes ↔
      ∃ front back, first.toExcept = .ok front ∧ second.toExcept = .ok back ∧
        front ++ back = bytes := by
  rw [toExcept_append]
  cases first.toExcept with
  | error => exact ⟨nofun, nofun⟩
  | ok front =>
      cases second.toExcept with
      | error => exact ⟨nofun, nofun⟩
      | ok back => simp [Except.bind, Except.map]

@[simp] theorem toExcept_within_eq_ok {layer : Layer} {draft : Draft} {bytes : Bytes} :
    (draft.within layer).toExcept = .ok bytes ↔ draft.toExcept = .ok bytes := by
  rw [toExcept_within]
  cases draft.toExcept with
  | error => exact ⟨nofun, nofun⟩
  | ok => exact Iff.rfl

@[simp] theorem toExcept_inField_eq_ok {field : Field} {draft : Draft} {bytes : Bytes} :
    (draft.inField field).toExcept = .ok bytes ↔ draft.toExcept = .ok bytes :=
  toExcept_within_eq_ok

theorem toExcept_require_append_eq_ok {condition : Bool} {fault : Fault} {draft : Draft}
    {bytes : Bytes} :
    (require condition fault ++ draft).toExcept = .ok bytes ↔
      condition = true ∧ draft.toExcept = .ok bytes := by
  cases condition with
  | false => exact ⟨nofun, nofun⟩
  | true => exact ⟨fun written => ⟨rfl, written⟩, And.right⟩

/-! ## Sequences of drafts -/

theorem append_empty (draft : Draft) : draft ++ empty = draft := by
  obtain ⟨bytes, _ | error⟩ := draft
  · exact congrArg (Draft.mk · none) (List.append_nil bytes)
  · rfl

theorem append_assoc (first second third : Draft) :
    first ++ second ++ third = first ++ (second ++ third) := by
  obtain ⟨bytes, _ | error⟩ := first
  · obtain ⟨bytes', _ | error⟩ := second
    · exact congrArg (Draft.mk · third.error?) (List.append_assoc ..)
    · rfl
  · rfl

theorem concat_nil : concat [] = empty := rfl

theorem concat_cons (draft : Draft) (drafts : List Draft) :
    concat (draft :: drafts) = draft ++ concat drafts := rfl

def byte (value : UInt8) : Draft := raw [value]

/-- A two byte integer, high byte first. -/
def uint16 (value : UInt16) : Draft :=
  raw [UInt8.ofNat (value.toNat / 256), UInt8.ofNat value.toNat]

/-- A four byte integer, high byte first. -/
def uint32 (value : UInt32) : Draft :=
  raw [UInt8.ofNat (value.toNat / 16777216), UInt8.ofNat (value.toNat / 65536),
    UInt8.ofNat (value.toNat / 256), UInt8.ofNat value.toNat]

/-- Bytes after a two byte length, unless there are too many of them. -/
def measured (measured : Measured) (content : Bytes) : Draft :=
  if content.length ≤ maxFieldLength then
    uint16 (UInt16.ofNat content.length) ++ raw content
  else fail (.tooLong measured content.length)

def binary (content : Bytes) : Draft := measured .binary content

def text (content : String) : Draft := measured .text (Utf8.encode content)

/-! ## Onto a buffer -/

/-- Put the draft behind what a buffer holds, and count its bytes. What came before an error
    stays in the buffer. -/
def write (draft : Draft) : EStateM Error Bytes Nat := fun buffer =>
  match draft.error? with
  | none => .ok draft.bytes.length (buffer ++ draft.bytes)
  | some error => .error error (buffer ++ draft.bytes)

theorem write_eq_ok {draft : Draft} {buffer after : Bytes} {count : Nat} :
    draft.write buffer = .ok count after ↔
      ∃ bytes, draft.toExcept = .ok bytes ∧ bytes.length = count ∧ buffer ++ bytes = after := by
  obtain ⟨bytes, _ | error⟩ := draft
  · simp [write, toExcept]
  · simp [write, toExcept]

theorem write_of_ok {draft : Draft} {bytes : Bytes} (written : draft.toExcept = .ok bytes)
    (buffer : Bytes) : draft.write buffer = .ok bytes.length (buffer ++ bytes) :=
  write_eq_ok.2 ⟨bytes, written, rfl, rfl⟩

/-- A draft that puts out nothing leaves the buffer as it is. -/
theorem write_fail (fault : Fault) (buffer : Bytes) :
    (fail fault).write buffer = .error fault buffer := by
  simp [write, fail]

theorem write_append (first second : Draft) :
    (first ++ second).write = do
      let front ← first.write
      let back ← second.write
      return front + back := by
  funext buffer
  obtain ⟨bytes, _ | error⟩ := first
  · obtain ⟨bytes', error?⟩ := second
    cases error? with
    | none =>
        change EStateM.Result.ok (bytes ++ bytes').length (buffer ++ (bytes ++ bytes')) =
          .ok (bytes.length + bytes'.length) (buffer ++ bytes ++ bytes')
        rw [List.length_append, List.append_assoc]
    | some error => exact congrArg (EStateM.Result.error error) (List.append_assoc ..).symm
  · rfl

theorem write_within (layer : Layer) (draft : Draft) :
    (draft.within layer).write = draft.write.adaptExcept (Error.within layer) := by
  funext buffer
  obtain ⟨bytes, _ | error⟩ := draft <;> rfl

theorem write_measured_of_lt {measured : Measured} {content : Bytes}
    (long : maxFieldLength < content.length) (buffer : Bytes) :
    (Draft.measured measured content).write buffer =
      .error (Fault.tooLong measured content.length) buffer := by
  rw [Draft.measured, if_neg (Nat.not_le.2 long), write_fail]

end Draft

end MqttWire
