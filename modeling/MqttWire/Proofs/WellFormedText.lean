import MqttWire.Text.Utf8

/-! # Well-formed text

A sequence of one to four bytes carries the bits of a code point. The first byte says how many
there are, so that sequences can be told apart; but it does not keep a sequence from having
more bytes than its code point needs, nor from a code point that no character has. Text is made
up of sequences of which neither is true. Bytes are decoded just when they are such text.
-/

namespace MqttWire.Utf8

/-- The bits of a code point, in the portions in which bytes carry them. -/
inductive Sequence where
  | one (a : Fin 128)
  | two (a : Fin 32) (b : Fin 64)
  | three (a : Fin 16) (b c : Fin 64)
  | four (a : Fin 8) (b c d : Fin 64)

namespace Sequence

/-- The number of leading ones is that of the bytes, none standing for a single byte. A single
    one marks the bytes behind the first. -/
def bytes : Sequence → Bytes
  | one a => [UInt8.ofNat a]
  | two a b => [UInt8.ofNat (a + 0xC0), UInt8.ofNat (b + 0x80)]
  | three a b c => [UInt8.ofNat (a + 0xE0), UInt8.ofNat (b + 0x80), UInt8.ofNat (c + 0x80)]
  | four a b c d =>
      [UInt8.ofNat (a + 0xF0), UInt8.ofNat (b + 0x80), UInt8.ofNat (c + 0x80),
        UInt8.ofNat (d + 0x80)]

/-- The number that the bits make up, the highest portion first. -/
def codePoint : Sequence → Nat
  | one a => a
  | two a b => a * 64 + b
  | three a b c => (a * 64 + b) * 64 + c
  | four a b c d => ((a * 64 + b) * 64 + c) * 64 + d

/-- Fewer bytes would do. -/
def IsOverlong (sequence : Sequence) : Prop :=
  ∃ other : Sequence, other.codePoint = sequence.codePoint ∧
    other.bytes.length < sequence.bytes.length

/-- Half of a pair of code units. -/
def IsSurrogate (sequence : Sequence) : Prop :=
  0xD800 ≤ sequence.codePoint ∧ sequence.codePoint ≤ 0xDFFF

/-- Beyond the last code point. -/
def IsOutOfRange (sequence : Sequence) : Prop := 0x10FFFF < sequence.codePoint

/-- Sequences that may stand in a text. -/
structure IsLegal (sequence : Sequence) : Prop where
  notOverlong : ¬sequence.IsOverlong
  notSurrogate : ¬sequence.IsSurrogate
  inRange : ¬sequence.IsOutOfRange

/-! ## Sequences and bytes -/

/-- The bytes show where a sequence ends and what it carries. -/
theorem eq_of_append_eq {first second : Sequence} {rest rest' : Bytes}
    (same : first.bytes ++ rest = second.bytes ++ rest') : first = second ∧ rest = rest' := by
  cases first <;> cases second <;>
    simp only [bytes, List.cons_append, List.nil_append, List.cons.injEq, ← UInt8.toNat_inj,
      UInt8.toNat_ofNat'] at same <;>
    grind

theorem eq_of_codePoint_eq {first second : Sequence}
    (sameLength : first.bytes.length = second.bytes.length)
    (sameCode : first.codePoint = second.codePoint) : first = second := by
  cases first <;> cases second <;>
    simp only [bytes, List.length_cons, List.length_nil, codePoint] at sameLength sameCode <;>
    grind

/-- The sequence of a code point, with as few bytes as can carry its bits. -/
def shortest (value : Nat) : Sequence :=
  if value < 0x80 then one (.ofNat 128 value)
  else if value < 0x800 then two (.ofNat 32 (value / 64)) (.ofNat 64 value)
  else if value < 0x10000 then
    three (.ofNat 16 (value / 4096)) (.ofNat 64 (value / 64)) (.ofNat 64 value)
  else
    four (.ofNat 8 (value / 262144)) (.ofNat 64 (value / 4096)) (.ofNat 64 (value / 64))
      (.ofNat 64 value)

theorem codePoint_shortest {value : Nat} (small : value < 0x200000) :
    (shortest value).codePoint = value := by
  unfold shortest
  split
  · simp only [codePoint, Fin.val_ofNat]
    omega
  · split
    · simp only [codePoint, Fin.val_ofNat]
      omega
    · split
      · simp only [codePoint, Fin.val_ofNat]
        omega
      · simp only [codePoint, Fin.val_ofNat]
        omega

theorem length_shortest_le (sequence : Sequence) :
    (shortest sequence.codePoint).bytes.length ≤ sequence.bytes.length := by
  unfold shortest
  cases sequence <;> grind [bytes, codePoint]

theorem codePoint_lt (sequence : Sequence) : sequence.codePoint < 0x200000 := by
  cases sequence <;> simp only [codePoint] <;> omega

theorem not_isOverlong_iff {sequence : Sequence} :
    ¬sequence.IsOverlong ↔ sequence = shortest sequence.codePoint := by
  have sameCode := codePoint_shortest sequence.codePoint_lt
  constructor
  · intro notOverlong
    have notShorter := Nat.not_lt.1 fun shorter => notOverlong ⟨_, sameCode, shorter⟩
    exact eq_of_codePoint_eq (Nat.le_antisymm notShorter sequence.length_shortest_le) sameCode.symm
  · intro isShortest overlong
    obtain ⟨other, same, shorter⟩ := overlong
    have notShorter := other.length_shortest_le
    rw [same, ← isShortest] at notShorter
    exact Nat.not_lt.2 notShorter shorter

/-! ## Sequences and characters -/

theorem bytes_shortest_char (char : Char) :
    (shortest char.toNat).bytes = String.utf8EncodeChar char := by
  unfold shortest String.utf8EncodeChar Char.toNat
  grind [bytes]

/-- Characters are what legal sequences stand for. -/
theorem isLegal_iff {sequence : Sequence} :
    sequence.IsLegal ↔ ∃ char : Char, sequence = shortest char.toNat := by
  constructor
  · intro legal
    have valid : sequence.codePoint.isValidChar := by
      obtain ⟨-, notSurrogate, inRange⟩ := legal
      simp only [IsSurrogate, IsOutOfRange, Nat.isValidChar] at *
      omega
    exact ⟨.ofNatAux sequence.codePoint valid, not_isOverlong_iff.1 legal.notOverlong⟩
  · intro isCharacter
    obtain ⟨char, rfl⟩ := isCharacter
    have valid : char.toNat.isValidChar := char.valid
    have sameCode : (shortest char.toNat).codePoint = char.toNat := codePoint_shortest (by omega)
    refine ⟨not_isOverlong_iff.2 (by rw [sameCode]), ?_, ?_⟩
    · simp only [IsSurrogate, sameCode]
      omega
    · simp only [IsOutOfRange, sameCode]
      omega

theorem codePoint_shortest_char (char : Char) : (shortest char.toNat).codePoint = char.toNat := by
  have valid : char.toNat.isValidChar := char.valid
  exact codePoint_shortest (by omega)

theorem flatMap_bytes_injective {first second : List Sequence}
    (same : first.flatMap bytes = second.flatMap bytes) : first = second := by
  induction first generalizing second with
  | nil =>
      cases second with
      | nil => rfl
      | cons head tail => cases head <;> cases same
  | cons head tail ih =>
      cases second with
      | nil => cases head <;> cases same
      | cons head' tail' =>
          obtain ⟨rfl, sameTail⟩ := eq_of_append_eq same
          rw [ih sameTail]

end Sequence

/-- Bytes that are made up of legal sequences. -/
def IsWellFormed (bytes : Bytes) : Prop :=
  ∃ sequences : List Sequence, (∀ sequence ∈ sequences, sequence.IsLegal) ∧
    sequences.flatMap Sequence.bytes = bytes

theorem encode_eq_flatMap (text : String) :
    encode text = (text.toList.map fun char => Sequence.shortest char.toNat).flatMap
      Sequence.bytes := by
  rw [List.flatMap_map]
  simp only [Sequence.bytes_shortest_char]
  rw [encode, ← String.utf8Encode_toList, List.utf8Encode]
  simp

/-- Text is decoded from legal sequences, and from nothing else. -/
theorem decode?_eq_some_iff_sequences {bytes : Bytes} {text : String} :
    decode? bytes = some text ↔ ∃ sequences : List Sequence,
      (∀ sequence ∈ sequences, sequence.IsLegal) ∧ sequences.flatMap Sequence.bytes = bytes ∧
      sequences.map Sequence.codePoint = text.toList.map Char.toNat := by
  constructor
  · intro decoded
    refine ⟨text.toList.map fun char => .shortest char.toNat, ?_, ?_, ?_⟩
    · intro sequence member
      obtain ⟨char, -, rfl⟩ := List.mem_map.1 member
      exact Sequence.isLegal_iff.2 ⟨char, rfl⟩
    · rw [← encode_eq_flatMap, encode_of_decode? decoded]
    · simp only [List.map_map, Function.comp_def, Sequence.codePoint_shortest_char]
  · intro spelled
    obtain ⟨sequences, legal, rfl, sameCodes⟩ := spelled
    have same : sequences = text.toList.map fun char => .shortest char.toNat :=
      calc sequences
        _ = sequences.map id := (List.map_id sequences).symm
        _ = sequences.map fun sequence => .shortest sequence.codePoint :=
            List.map_congr_left fun sequence member =>
              Sequence.not_isOverlong_iff.1 (legal sequence member).notOverlong
        _ = (sequences.map Sequence.codePoint).map .shortest := by rw [List.map_map]; rfl
        _ = text.toList.map fun char => .shortest char.toNat := by rw [sameCodes, List.map_map]; rfl
    rw [same, ← encode_eq_flatMap, decode?_encode]

theorem exists_decode?_iff {bytes : Bytes} :
    (∃ text, decode? bytes = some text) ↔ IsWellFormed bytes := by
  constructor
  · intro decoded
    obtain ⟨text, decoded⟩ := decoded
    obtain ⟨sequences, legal, whole, -⟩ := decode?_eq_some_iff_sequences.1 decoded
    exact ⟨sequences, legal, whole⟩
  · intro wellFormed
    obtain ⟨sequences, legal, rfl⟩ := wellFormed
    refine ⟨.ofList (sequences.map fun sequence => .ofNat sequence.codePoint),
      decode?_eq_some_iff_sequences.2 ⟨sequences, legal, rfl, ?_⟩⟩
    rw [String.toList_ofList, List.map_map]
    refine List.map_congr_left fun sequence member => ?_
    obtain ⟨char, rfl⟩ := Sequence.isLegal_iff.1 (legal sequence member)
    simp [Sequence.codePoint_shortest_char]

theorem decode?_eq_none_iff {bytes : Bytes} : decode? bytes = none ↔ ¬IsWellFormed bytes := by
  rw [← exists_decode?_iff, ← Option.isSome_iff_exists, Option.not_isSome_iff_eq_none]

/-- No sequence that is not legal stands in a text. -/
theorem isWellFormed_flatMap_iff {sequences : List Sequence} :
    IsWellFormed (sequences.flatMap Sequence.bytes) ↔
      ∀ sequence ∈ sequences, sequence.IsLegal := by
  constructor
  · intro wellFormed
    obtain ⟨others, legal, same⟩ := wellFormed
    rwa [Sequence.flatMap_bytes_injective same] at legal
  · exact fun legal => ⟨sequences, legal, rfl⟩

end MqttWire.Utf8
