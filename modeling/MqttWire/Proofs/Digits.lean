import Mathlib.Algebra.BigOperators.Fin
import Mathlib.Data.Nat.Digits.Defs
import MqttWire.Proofs.Framing
import MqttWire.Proofs.PackedByte

/-! # Numbers to the base of 128

A variable byte integer is a number in base 128, the lowest digit first, with one digit to a
byte; the highest bit of a byte says whether another digit follows. The writer finds the digits
by division, the reader weighs and adds them, and the size is told by comparison. Here all three
are held to the digits.
-/

namespace MqttWire

/-- The highest bit announces another byte. -/
theorem hasBit_seven {byte : UInt8} : hasBit byte 7 ↔ 128 ≤ byte.toNat := by
  have bit : (hasBit byte 7).toNat = byte.toNat / 128 % 2 := Nat.toNat_testBit ..
  have small := byte.toNat_lt
  cases set : hasBit byte 7 <;> simp only [set, Bool.toNat_true, Bool.toNat_false] at bit <;>
    simp <;> omega

theorem goesOn_iff_hasBit {bytes : Bytes} : GoesOn bytes ↔ ∀ byte ∈ bytes, hasBit byte 7 := by
  simp only [GoesOn, hasBit_seven]

theorem IsNumeral.iff_front_last {bytes : Bytes} :
    IsNumeral bytes ↔ ∃ front last, front ++ [last] = bytes ∧
      (∀ byte ∈ front, hasBit byte 7) ∧ ¬hasBit last 7 := by
  constructor
  · intro numeral
    induction numeral with
    | @last byte ends =>
        exact ⟨[], byte, rfl, nofun, hasBit_seven.not.2 (Nat.not_le.2 ends)⟩
    | @more byte tail goesOn _ ih =>
        obtain ⟨front, last, rfl, others, ends⟩ := ih
        exact ⟨byte :: front, last, rfl, List.forall_mem_cons.2 ⟨hasBit_seven.2 goesOn, others⟩, ends⟩
  · intro parts
    obtain ⟨front, last, rfl, goOn, ends⟩ := parts
    induction front with
    | nil => exact .last (Nat.not_le.1 (hasBit_seven.not.1 ends))
    | cons byte front ih =>
        obtain ⟨first, others⟩ := List.forall_mem_cons.1 goOn
        exact .more (hasBit_seven.1 first) (ih others)

namespace VarInt

/-! ## Digits -/

/-- The digits of a number, the lowest first. Zero has one digit. -/
def digits (value : Nat) : List Nat :=
  if value = 0 then [0] else Nat.digits 128 value

/-- A byte for each digit. The highest bit is set on all but the last. -/
def continued : List Nat → Bytes
  | [] => []
  | [last] => [UInt8.ofNat last]
  | digit :: next :: higher => UInt8.ofNat (digit + 128) :: continued (next :: higher)

/-- The sum of the digits in the bytes, each at its place. -/
def weighed (bytes : Bytes) : Nat :=
  ∑ place : Fin bytes.length, bytes[place].toNat % 128 * 128 ^ (place : Nat)

theorem digits_of_lt {value : Nat} (small : value < 128) : digits value = [value] := by
  unfold digits
  split
  · rename_i isZero
    rw [isZero]
  · rename_i nonzero
    exact Nat.digits_of_lt 128 value nonzero small

theorem digits_of_le {value : Nat} (large : 128 ≤ value) :
    digits value = value % 128 :: digits (value / 128) := by
  have higher : value / 128 ≠ 0 := Nat.ne_of_gt (Nat.div_pos large (by decide))
  rw [digits, digits, if_neg (by omega), if_neg higher]
  exact Nat.digits_def' (by decide) (by omega)

theorem continued_cons (digit : Nat) {higher : List Nat} (some : higher ≠ []) :
    continued (digit :: higher) = UInt8.ofNat (digit + 128) :: continued higher := by
  cases higher with
  | nil => exact absurd rfl some
  | cons => rfl

theorem digits_ne_nil (value : Nat) : digits value ≠ [] := by
  rcases Nat.lt_or_ge value 128 with small | large
  · simp [digits_of_lt small]
  · simp [digits_of_le large]

/-- Where there is room for them, the groups are the digits. -/
theorem groups_eq_continued {more value : Nat} (small : value < capacity (more + 1)) :
    groups (more + 1) value = continued (digits value) := by
  induction more generalizing value with
  | zero =>
      have single : value < 128 := small
      rw [groups, if_pos single, digits_of_lt single]
      rfl
  | succ more ih =>
      rw [groups]
      split
      case isTrue single =>
        rw [digits_of_lt single]
        rfl
      case isFalse several =>
        have higher : value / 128 < capacity (more + 1) := Nat.div_lt_of_lt_mul small
        rw [ih higher, digits_of_le (Nat.le_of_not_lt several), continued_cons _ (digits_ne_nil _)]

theorem ofGroups_eq_weighed (bytes : Bytes) : ofGroups bytes = weighed bytes := by
  induction bytes with
  | nil => rfl
  | cons byte tail ih =>
      rw [ofGroups, ih, weighed, weighed, Finset.mul_sum]
      refine Eq.trans ?_ (Fin.sum_univ_succ _).symm
      congr 1
      · simp
      · refine Finset.sum_congr rfl fun place _ => ?_
        simp [pow_succ]
        ring

/-! ## What the reader makes of bytes -/

section Reading

variable {input rest : Bytes} {value : Nat}

/-- The first bytes have the highest bit clear in one of four, set in all four, or there are
    fewer and it is set in all. The reader gives a number only in the first case. -/
theorem reader_outcome (input : Bytes) :
    (∃ (numeral : Numeral) (rest : Bytes), numeral.bytes ++ rest = input ∧
      reader input = .ok numeral.value rest) ∨
    (∃ four rest, (four.length = 4 ∧ GoesOn four) ∧ four ++ rest = input ∧
      reader input = .error ⟨[], .malformedVarInt⟩ rest) ∨
    ((input.length < 4 ∧ GoesOn input) ∧ reader input = .error ⟨[], .bufferTooSmall 1 0⟩ []) := by
  obtain ⟨bytes, rest, ⟨grouped, short⟩, rfl⟩ | ⟨four, rest, ⟨length, goesOn⟩, rfl⟩ |
    ⟨few, goesOn⟩ := exists_numeral_or_goesOn 4 input
  · let numeral : Numeral := ⟨bytes, grouped, short⟩
    exact .inl ⟨numeral, rest, rfl, numeral.reader_bytes rest⟩
  · exact .inr (.inl ⟨four, rest, ⟨length, goesOn⟩, rfl, reader_of_four goesOn length rest⟩)
  · exact .inr (.inr ⟨⟨few, goesOn⟩, reader_of_fewer goesOn few⟩)

theorem reader_eq_ok_iff :
    reader input = .ok value rest ↔ ∃ front last, front ++ last :: rest = input ∧
      front.length < 4 ∧ (∀ byte ∈ front, hasBit byte 7) ∧ ¬hasBit last 7 ∧
      weighed (front ++ [last]) = value := by
  rw [reader, read_eq_ok]
  constructor
  · intro found
    obtain ⟨bytes, ⟨numeral, short, rfl⟩, rfl⟩ := found
    obtain ⟨front, last, rfl, goOn, ends⟩ := IsNumeral.iff_front_last.1 numeral
    rw [List.length_append, List.length_singleton] at short
    exact ⟨front, last, by simp, short, goOn, ends, (ofGroups_eq_weighed _).symm⟩
  · intro parts
    obtain ⟨front, last, rfl, few, goOn, ends, rfl⟩ := parts
    refine ⟨front ++ [last], ⟨IsNumeral.iff_front_last.2 ⟨front, last, rfl, goOn, ends⟩, ?_,
      ofGroups_eq_weighed _⟩, by simp⟩
    rw [List.length_append, List.length_singleton]
    exact few

theorem reader_eq_malformed_iff :
    reader input = .error ⟨[], .malformedVarInt⟩ rest ↔
      ∃ four, four ++ rest = input ∧ four.length = 4 ∧ ∀ byte ∈ four, hasBit byte 7 := by
  simp only [← goesOn_iff_hasBit]
  constructor
  · intro malformed
    obtain ⟨_, _, -, read⟩ | ⟨four, left, isFour, rfl, read⟩ | ⟨-, read⟩ := reader_outcome input
    · cases malformed.symm.trans read
    · cases malformed.symm.trans read
      exact ⟨four, rfl, isFour⟩
    · cases malformed.symm.trans read
  · intro four
    obtain ⟨four, rfl, length, goesOn⟩ := four
    exact reader_of_four goesOn length rest

theorem reader_eq_short_iff {needed got : Nat} :
    reader input = .error ⟨[], .bufferTooSmall needed got⟩ rest ↔
      (needed = 1 ∧ got = 0 ∧ rest = []) ∧ input.length < 4 ∧ ∀ byte ∈ input, hasBit byte 7 := by
  rw [← goesOn_iff_hasBit]
  constructor
  · intro short
    obtain ⟨_, _, -, read⟩ | ⟨_, _, -, -, read⟩ | ⟨fewer, read⟩ := reader_outcome input
    · cases short.symm.trans read
    · cases short.symm.trans read
    · cases short.symm.trans read
      exact ⟨⟨rfl, rfl, rfl⟩, fewer⟩
  · intro fewer
    obtain ⟨⟨rfl, rfl, rfl⟩, few, goesOn⟩ := fewer
    exact reader_of_fewer goesOn few

theorem reader_succeeds_iff :
    (∃ value rest, reader input = .ok value rest) ↔ ∃ byte ∈ input.take 4, ¬hasBit byte 7 := by
  constructor
  · intro found
    obtain ⟨value, rest, read⟩ := found
    obtain ⟨front, last, rfl, few, -, ends, -⟩ := reader_eq_ok_iff.1 read
    have among : last ∈ (front ++ last :: rest).take 4 := by
      rw [List.take_append, List.mem_append]
      refine .inr ?_
      obtain ⟨more, room⟩ := Nat.exists_eq_add_of_lt few
      rw [show 4 - front.length = more + 1 by omega]
      exact .head _
    exact ⟨last, among, ends⟩
  · intro clear
    obtain ⟨byte, among, clear⟩ := clear
    obtain ⟨_, _, -, read⟩ | ⟨four, rest, ⟨length, goesOn⟩, rfl, -⟩ | ⟨⟨few, goesOn⟩, -⟩ :=
      reader_outcome input
    · exact ⟨_, _, read⟩
    · rw [← length, List.take_left] at among
      exact absurd (goesOn_iff_hasBit.1 goesOn byte among) clear
    · rw [List.take_of_length_le (Nat.le_of_lt few)] at among
      exact absurd (goesOn_iff_hasBit.1 goesOn byte among) clear

theorem le_of_reader (read : reader input = .ok value rest) : value ≤ maxVarInt := by
  obtain ⟨_, ⟨numeral, rfl, rfl⟩, -⟩ := Numeral.accepts_reader.1 read
  exact numeral.value_le

theorem size_le_of_reader (read : reader input = .ok value rest) : size value ≤ input.length := by
  obtain ⟨_, ⟨numeral, rfl, rfl⟩, rfl⟩ := Numeral.accepts_reader.1 read
  rw [List.length_append]
  exact Nat.le_add_right_of_le numeral.size_le_length

end Reading

theorem toExcept_draft_eq_digits {value : Nat} (small : value ≤ maxVarInt) :
    (draft value).toExcept = .ok (continued (digits value)) := by
  rw [draft, if_pos small, Draft.toExcept_raw, groups_eq_continued (Nat.lt_succ_of_le small)]

theorem length_continued_digits {value : Nat} (small : value ≤ maxVarInt) :
    (continued (digits value)).length = size value :=
  measures_draft value (toExcept_draft_eq_digits small)

/-- The writer puts out the digits of a number, counts as many as its size says, and no fewer
    bytes are read as that number; it puts out nothing for a number beyond the limit. The
    reader succeeds just when one of the first four bytes has its highest bit clear. It adds up
    the digits to the first of these, consumes no more, and gives no number beyond the limit. It
    finds four bytes with the bit set malformed, and asks for more after fewer of them. -/
theorem meets_digits :
    (∀ value, value ≤ maxVarInt →
      (continued (digits value)).length = size value ∧
      (∀ buffer, write value buffer = .ok (size value) (buffer ++ continued (digits value))) ∧
      ∀ bytes rest, bytes.length < size value → reader bytes ≠ .ok value rest) ∧
    (∀ value, maxVarInt < value → ∀ buffer,
      write value buffer = .error (Fault.varIntOverflow value) buffer) ∧
    ∀ input,
      ((∃ value rest, reader input = .ok value rest) ↔ ∃ byte ∈ input.take 4, ¬hasBit byte 7) ∧
      ∀ rest,
        (∀ value, reader input = .ok value rest ↔ ∃ front last, front ++ last :: rest = input ∧
          front.length < 4 ∧ (∀ byte ∈ front, hasBit byte 7) ∧ ¬hasBit last 7 ∧
          weighed (front ++ [last]) = value) ∧
        (∀ value, reader input = .ok value rest → value ≤ maxVarInt) ∧
        (reader input = .error ⟨[], .malformedVarInt⟩ rest ↔
          ∃ four, four ++ rest = input ∧ four.length = 4 ∧ ∀ byte ∈ four, hasBit byte 7) ∧
        ∀ needed got, reader input = .error ⟨[], .bufferTooSmall needed got⟩ rest ↔
          (needed = 1 ∧ got = 0 ∧ rest = []) ∧ input.length < 4 ∧ ∀ byte ∈ input, hasBit byte 7 := by
  simp only [write_eq]
  refine ⟨fun value small => ?small, fun value => write_draft_of_lt, fun input =>
    ⟨reader_succeeds_iff, fun rest => ⟨fun _ => reader_eq_ok_iff, fun _ => le_of_reader,
      reader_eq_malformed_iff, fun _ _ => reader_eq_short_iff⟩⟩⟩
  case small =>
    have measured := length_continued_digits small
    refine ⟨measured, fun buffer => ?_, fun bytes rest fewer read => ?_⟩
    · rw [← measured]
      exact Draft.write_of_ok (toExcept_draft_eq_digits small) buffer
    · exact absurd (size_le_of_reader read) (Nat.not_le.2 fewer)

/-- The least number of three digits, the least number beyond the limit, and bytes that go on
    too long or end too early. -/
theorem meets_digits_three :
    digits 16384 = [0, 0, 1] ∧
      write 16384 [7] = .ok 3 ([7] ++ [128, 128, 1]) ∧
      (∀ rest, reader [255, 127] ≠ .ok 16384 rest) ∧
      write 268435456 [7] = .error (Fault.varIntOverflow 268435456) [7] ∧
      reader [128, 128, 1, 170] = .ok 16384 [170] ∧ 16384 ≤ maxVarInt ∧
      reader [255, 255, 255, 255, 1] = .error ⟨[], .malformedVarInt⟩ [1] ∧
      reader [128, 128] = .error ⟨[], .bufferTooSmall 1 0⟩ [] := by
  obtain ⟨writes, refuses, reads⟩ := meets_digits
  have found : digits 16384 = [0, 0, 1] := by decide
  obtain ⟨-, written, noShorter⟩ := writes 16384 (by decide)
  rw [found] at written
  have read : reader [128, 128, 1, 170] = .ok 16384 [170] :=
    (((reads _).2 _).1 _).2 ⟨[128, 128], 1, rfl, by decide, List.all_eq_true.1 rfl, nofun, rfl⟩
  refine ⟨found, written [7], fun rest => noShorter _ rest (by decide), refuses _ (by decide) _,
    read, ((reads _).2 _).2.1 _ read, ((reads _).2 _).2.2.1.2 ?_, (((reads _).2 _).2.2.2 _ _).2 ?_⟩
  · exact ⟨[255, 255, 255, 255], rfl, rfl, List.all_eq_true.1 rfl⟩
  · exact ⟨⟨rfl, rfl, rfl⟩, by decide, List.all_eq_true.1 rfl⟩

end VarInt

end MqttWire
