import MqttWire.Proofs.Field

/-! # Numerals

A numeral is a variable byte integer as it stands on the wire: one to four
groups of seven bits, lowest group first. The reader accepts every numeral. One
number has several, since high groups of zeros may be added; the writer puts out
the one with the fewest bytes.
-/

namespace MqttWire

/-- Every byte but the last announces another. -/
inductive IsNumeral : Bytes → Prop where
  | last {byte : UInt8} (ends : byte.toNat < 128) : IsNumeral [byte]
  | more {byte : UInt8} {tail : Bytes} (goesOn : 128 ≤ byte.toNat) (rest : IsNumeral tail) :
      IsNumeral (byte :: tail)

/-- The number that groups of seven bits stand for, lowest group first. -/
def ofGroups : Bytes → Nat
  | [] => 0
  | byte :: tail => byte.toNat % 128 + 128 * ofGroups tail

/-- How many numbers there are of up to so many groups. -/
def capacity : Nat → Nat
  | 0 => 1
  | groups + 1 => 128 * capacity groups

theorem capacity_mono {groups groups' : Nat} (le : groups ≤ groups') :
    capacity groups ≤ capacity groups' := by
  induction le with
  | refl => exact Nat.le_refl _
  | step _ ih =>
      rw [capacity]
      omega

namespace IsNumeral

theorem length_pos {bytes : Bytes} (numeral : IsNumeral bytes) : 0 < bytes.length := by
  cases numeral <;> simp

theorem ofGroups_lt {bytes : Bytes} (numeral : IsNumeral bytes) :
    ofGroups bytes < capacity bytes.length := by
  induction numeral with
  | @last byte ends =>
      simp only [ofGroups, List.length_singleton, capacity]
      omega
  | @more byte tail goesOn rest ih =>
      simp only [ofGroups, List.length_cons, capacity]
      omega

/-- Numerals of one length are equal when their numbers are. -/
theorem eq_of_ofGroups_eq {bytes other : Bytes} (numeral : IsNumeral bytes)
    (numeral' : IsNumeral other) (sameLength : bytes.length = other.length)
    (sameNumber : ofGroups bytes = ofGroups other) : bytes = other := by
  induction numeral generalizing other with
  | @last byte ends =>
      cases numeral' with
      | @last byte' ends' =>
          simp only [ofGroups] at sameNumber
          have same : byte = byte' := UInt8.toNat_inj.1 (by omega)
          rw [same]
      | more _ rest' =>
          have := rest'.length_pos
          simp only [List.length_cons, List.length_nil] at sameLength
          omega
  | @more byte tail goesOn rest ih =>
      cases numeral' with
      | last =>
          have := rest.length_pos
          simp only [List.length_cons, List.length_nil] at sameLength
          omega
      | @more byte' tail' goesOn' rest' =>
          simp only [ofGroups] at sameNumber
          have below := byte.toNat_lt
          have below' := byte'.toNat_lt
          have same : byte = byte' := UInt8.toNat_inj.1 (by omega)
          rw [same, ih rest' (by simpa using sameLength) (by omega)]

end IsNumeral

theorem VarInt.read_eq_ok {more : Nat} {input rest : Bytes} {value : Nat} :
    VarInt.read Reader.byte more input = .ok value rest ↔
      ∃ bytes, (IsNumeral bytes ∧ bytes.length ≤ more ∧ ofGroups bytes = value) ∧
        bytes ++ rest = input := by
  induction more generalizing input value with
  | zero =>
      refine ⟨nofun, ?_⟩
      intro spelled
      obtain ⟨bytes, ⟨numeral, short, -⟩, -⟩ := spelled
      have := numeral.length_pos
      omega
  | succ more ih =>
      simp only [VarInt.read, Reader.bind_eq_ok]
      constructor
      · intro read
        obtain ⟨byte, left, readByte, decoded⟩ := read
        obtain ⟨_, written, rfl⟩ := Reader.inverts_byte.1 readByte
        cases written
        split at decoded
        · rename_i ends
          cases decoded
          exact ⟨[byte], ⟨.last ends, by simp, Nat.mod_eq_of_lt ends⟩, rfl⟩
        · rename_i notLast
          obtain ⟨higher, left', readHigher, done⟩ := Reader.bind_eq_ok.1 decoded
          cases done
          obtain ⟨tail, ⟨numeral, short, rfl⟩, rfl⟩ := ih.1 readHigher
          have goesOn : 128 ≤ byte.toNat := Nat.le_of_not_lt notLast
          have below := byte.toNat_lt
          refine ⟨byte :: tail, ⟨.more goesOn numeral, by simpa using short, ?_⟩, rfl⟩
          simp only [ofGroups]
          omega
      · intro spelled
        obtain ⟨_, ⟨numeral, short, rfl⟩, rfl⟩ := spelled
        cases numeral with
        | @last byte ends =>
            refine ⟨byte, rest, rfl, ?_⟩
            have digit : ofGroups [byte] = byte.toNat := Nat.mod_eq_of_lt ends
            rw [if_pos (show byte < 128 from ends), digit]
            rfl
        | @more byte tail goesOn numeral =>
            refine ⟨byte, tail ++ rest, rfl, ?_⟩
            have below := byte.toNat_lt
            have digit : byte.toNat % 128 = byte.toNat - 128 := by omega
            rw [if_neg (show ¬ byte < 128 from Nat.not_lt.2 goesOn), Reader.bind_eq_ok]
            refine ⟨ofGroups tail, rest, ih.2 ⟨tail, ⟨numeral, by simpa using short, rfl⟩, rfl⟩, ?_⟩
            simp only [ofGroups, digit]
            rfl

/-! ## The fewest groups -/

namespace VarInt

theorem isNumeral_groups {more value : Nat} (small : value < capacity (more + 1)) :
    IsNumeral (groups (more + 1) value) := by
  induction more generalizing value with
  | zero =>
      have small : value < 128 := small
      simp only [groups, if_pos small]
      exact .last (by simp; omega)
  | succ more ih =>
      rw [groups]
      split
      · rename_i ends
        exact .last (by simp; omega)
      · have higher : value / 128 < capacity (more + 1) := Nat.div_lt_of_lt_mul small
        exact .more (by simp; omega) (ih higher)

theorem ofGroups_groups {more value : Nat} (small : value < capacity more) :
    ofGroups (groups more value) = value := by
  induction more generalizing value with
  | zero =>
      rw [capacity, Nat.lt_one_iff] at small
      rw [small]
      rfl
  | succ more ih =>
      rw [groups]
      split
      · simp only [ofGroups, UInt8.toNat_ofNat']
        omega
      · have higher : value / 128 < capacity more := Nat.div_lt_of_lt_mul small
        simp only [ofGroups, UInt8.toNat_ofNat', ih higher]
        omega

theorem length_groups_le (more : Nat) {bytes : Bytes} (numeral : IsNumeral bytes) :
    (groups more (ofGroups bytes)).length ≤ bytes.length := by
  induction more generalizing bytes with
  | zero => simp [groups]
  | succ more ih =>
      have pos := numeral.length_pos
      rw [groups]
      split
      · exact pos
      · rename_i large
        cases numeral with
        | last =>
            simp only [ofGroups] at large
            omega
        | @more byte tail goesOn rest =>
            have higher : ofGroups (byte :: tail) / 128 = ofGroups tail := by
              simp only [ofGroups]
              omega
            simpa only [List.length_cons, higher, Nat.add_le_add_iff_right] using ih rest

theorem length_groups {value : Nat} (small : value ≤ maxVarInt) :
    (groups 4 value).length = size value := by
  simp only [maxVarInt] at small
  grind [groups, size]

theorem size_mono {value value' : Nat} (le : value ≤ value') : size value ≤ size value' := by
  grind [size]

end VarInt

/-- A written variable byte integer. -/
@[ext] structure Numeral where
  bytes : Bytes
  grouped : IsNumeral bytes
  length_le : bytes.length ≤ 4

namespace Numeral

def value (numeral : Numeral) : Nat := ofGroups numeral.bytes

theorem value_le (numeral : Numeral) : numeral.value ≤ maxVarInt := by
  have below := numeral.grouped.ofGroups_lt
  have grow : capacity numeral.bytes.length ≤ capacity 4 := capacity_mono numeral.length_le
  have four : capacity 4 = maxVarInt + 1 := rfl
  simp only [value]
  omega

/-- The numeral that the writer puts out. -/
def shortest (value : Nat) (small : value ≤ maxVarInt) : Numeral where
  bytes := VarInt.groups 4 value
  grouped := VarInt.isNumeral_groups (Nat.lt_succ_of_le small)
  length_le := by
    rw [VarInt.length_groups small]
    grind [VarInt.size]

@[simp] theorem value_shortest {value : Nat} (small : value ≤ maxVarInt) :
    (shortest value small).value = value :=
  VarInt.ofGroups_groups (Nat.lt_succ_of_le small)

/-- No numeral of the same number has fewer bytes. -/
def IsShortest (numeral : Numeral) : Prop :=
  ∀ other : Numeral, other.value = numeral.value → numeral.bytes.length ≤ other.bytes.length

theorem isShortest_iff {numeral : Numeral} :
    numeral.IsShortest ↔ numeral.bytes = VarInt.groups 4 numeral.value := by
  constructor
  · intro isShortest
    have small := numeral.value_le
    have shorter := VarInt.length_groups_le 4 numeral.grouped
    have longer := isShortest (shortest numeral.value small) (value_shortest small)
    refine numeral.grouped.eq_of_ofGroups_eq (shortest numeral.value small).grouped
      (Nat.le_antisymm longer shorter) ?_
    exact (value_shortest small).symm
  · intro same other sameValue
    rw [same, ← sameValue]
    exact VarInt.length_groups_le 4 other.grouped

theorem isShortest_shortest {value : Nat} (small : value ≤ maxVarInt) :
    (shortest value small).IsShortest := by
  rw [isShortest_iff, value_shortest]
  rfl

theorem size_le_length (numeral : Numeral) : VarInt.size numeral.value ≤ numeral.bytes.length := by
  rw [← VarInt.length_groups numeral.value_le]
  exact VarInt.length_groups_le 4 numeral.grouped

theorem IsShortest.length_eq {numeral : Numeral} (isShortest : numeral.IsShortest) :
    numeral.bytes.length = VarInt.size numeral.value := by
  rw [isShortest_iff.1 isShortest, VarInt.length_groups numeral.value_le]

/-- A numeral as one of the written forms of its number. -/
def Spells (value : Nat) (bytes : Bytes) : Prop :=
  ∃ numeral : Numeral, numeral.value = value ∧ numeral.bytes = bytes

theorem accepts_reader : VarInt.reader.Accepts Spells := by
  intro input value rest
  rw [VarInt.reader, VarInt.read_eq_ok]
  constructor
  · intro read
    obtain ⟨bytes, ⟨grouped, short, rfl⟩, rfl⟩ := read
    exact ⟨bytes, ⟨⟨bytes, grouped, short⟩, rfl, rfl⟩, rfl⟩
  · intro spelled
    obtain ⟨_, ⟨numeral, rfl, rfl⟩, rfl⟩ := spelled
    exact ⟨numeral.bytes, ⟨numeral.grouped, numeral.length_le, rfl⟩, rfl⟩

theorem reader_bytes (numeral : Numeral) (rest : Bytes) :
    VarInt.reader (numeral.bytes ++ rest) = .ok numeral.value rest :=
  accepts_reader.read ⟨numeral, rfl, rfl⟩ rest

theorem eq_of_append_eq {first second : Numeral} {rest rest' : Bytes}
    (same : first.bytes ++ rest = second.bytes ++ rest') : first = second ∧ rest = rest' := by
  obtain ⟨-, sameBytes, sameRest⟩ :=
    accepts_reader.unambiguous ⟨first, rfl, rfl⟩ ⟨second, rfl, rfl⟩ same
  exact ⟨Numeral.ext sameBytes, sameRest⟩

/-- The writer puts out the shortest numeral, and nothing for a number that has
    none. -/
theorem toExcept_draft_eq_ok {value : Nat} {bytes : Bytes} :
    (VarInt.draft value).toExcept = .ok bytes ↔
      ∃ numeral : Numeral, numeral.IsShortest ∧ numeral.value = value ∧ numeral.bytes = bytes := by
  rw [VarInt.draft]
  split
  · rename_i small
    constructor
    · rintro ⟨⟩
      exact ⟨shortest value small, isShortest_shortest small, value_shortest small, rfl⟩
    · intro spelled
      obtain ⟨numeral, isShortest, rfl, rfl⟩ := spelled
      rw [isShortest_iff.1 isShortest]
      rfl
  · rename_i large
    refine ⟨nofun, ?_⟩
    intro spelled
    obtain ⟨numeral, -, rfl, -⟩ := spelled
    exact absurd numeral.value_le large

end Numeral

end MqttWire
