import MqttWire.Draft
import MqttWire.Reader

/-! # Variable byte integers

Numbers below 2²⁸ in one to four groups of seven bits, lowest group first; the
high bit of a byte says that another group follows. The writer uses as few
groups as it can. The reader also takes more, up to four.
-/

namespace MqttWire.VarInt

/-- Bytes that a number occupies. -/
def size (value : Nat) : Nat :=
  if value < 128 then 1
  else if value < 16384 then 2
  else if value < 2097152 then 3
  else 4

/-- The groups of a number, at most as many as given. -/
def groups : Nat → Nat → Bytes
  | 0, _ => []
  | more + 1, value =>
      if value < 128 then [UInt8.ofNat value]
      else UInt8.ofNat (value % 128 + 128) :: groups more (value / 128)

def draft (value : Nat) : Draft :=
  if value ≤ maxVarInt then .raw (groups 4 value) else .fail (.varIntOverflow value)

theorem write_draft_of_lt {value : Nat} (large : maxVarInt < value) (buffer : Bytes) :
    (draft value).write buffer = .error (Fault.varIntOverflow value) buffer := by
  have refused : draft value = Draft.fail (.varIntOverflow value) := if_neg (Nat.not_le.2 large)
  rw [refused, Draft.write_fail]

/-- Put groups of a number behind what a buffer holds, at most as many as given, and count on
    from those before. -/
def writeGroups : Nat → Nat → Nat → EStateM Error Bytes Nat
  | 0, _, count => return count
  | more + 1, value, count => do
      let higher := value / 128
      modify (· ++ [UInt8.ofNat (if 0 < higher then value % 128 + 128 else value % 128)])
      if higher = 0 then return count + 1 else writeGroups more higher (count + 1)

/-- Put a number behind what a buffer holds, and count its groups as they are put there. -/
def write (value : Nat) : EStateM Error Bytes Nat :=
  if value ≤ maxVarInt then writeGroups 4 value 0 else throw { root := .varIntOverflow value }

theorem writeGroups_eq (more value count : Nat) (buffer : Bytes) :
    writeGroups more value count buffer =
      .ok (count + (groups more value).length) (buffer ++ groups more value) := by
  induction more generalizing value count buffer with
  | zero => exact congrArg (EStateM.Result.ok count) (List.append_nil buffer).symm
  | succ more ih =>
      rw [groups]
      split
      case isTrue single =>
        have last : value / 128 = 0 := Nat.div_eq_of_lt single
        simp only [writeGroups, last, Nat.mod_eq_of_lt single]
        rfl
      case isFalse several =>
        have others : 0 < value / 128 := Nat.div_pos (Nat.le_of_not_lt several) (by decide)
        simp only [writeGroups, if_pos others, if_neg (Nat.ne_of_gt others)]
        refine (ih (value / 128) (count + 1) _).trans ?_
        rw [List.length_cons, List.append_assoc, Nat.add_assoc, Nat.add_comm 1]
        rfl

/-- The groups that are counted are those of the draft. -/
theorem write_eq (value : Nat) : write value = (draft value).write := by
  funext buffer
  by_cases small : value ≤ maxVarInt
  · have drafted : draft value = .raw (groups 4 value) := if_pos small
    rw [write, if_pos small, writeGroups_eq, drafted, Nat.zero_add]
    rfl
  · rw [write_draft_of_lt (Nat.lt_of_not_le small), write, if_neg small]
    rfl

/-- Read groups from a source of bytes, at most as many as given. -/
def read (next : EStateM Error σ UInt8) : Nat → EStateM Error σ Nat
  | 0 => throw { root := .malformedVarInt }
  | more + 1 => do
      let byte ← next
      if byte < 128 then
        return byte.toNat
      else
        let higher ← read next more
        return byte.toNat - 128 + 128 * higher

def reader : Reader Nat := read Reader.byte 4

theorem shortens_read : ∀ more, Reader.Shortens (read Reader.byte more)
  | 0 => Reader.shortens_throw _
  | more + 1 => by
      refine Reader.Shortens.bind Reader.advances_byte.shortens fun byte => ?_
      split
      · exact Reader.shortens_pure _
      · exact (shortens_read more).bind fun _ => Reader.shortens_pure _

theorem advances_reader : reader.Advances := by
  refine Reader.Advances.bind Reader.advances_byte fun byte => ?_
  split
  · exact Reader.shortens_pure _
  · exact (shortens_read 3).bind fun _ => Reader.shortens_pure _

example : groups 4 16384 = [0x80, 0x80, 0x01] := by decide
example : groups 4 maxVarInt = [0xFF, 0xFF, 0xFF, 0x7F] := by decide

end MqttWire.VarInt
