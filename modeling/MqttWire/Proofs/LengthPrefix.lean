import MqttWire.Proofs.FieldForm
import MqttWire.Proofs.Reports
import MqttWire.Proofs.WellFormedText

/-! # Fields behind their length

Text, binary data and pairs of texts are read from the bytes that are written for them, and from
no others. Other bytes end too early, or they hold a text that is not well-formed; the fields
are read in order, and the first that cannot be read decides which of the two is reported.
-/

namespace MqttWire

/-- The bytes end within a length or within the content that it announces: how many bytes are
    asked for there, how many there are, and what is left of them. -/
inductive IsCutShort : Bytes → Nat → Nat → Bytes → Prop where
  | length {input : Bytes} (few : input.length < 2) : IsCutShort input 2 input.length input
  | content {length : Word} {content : Bytes} (few : content.length < length.toNat) :
      IsCutShort (length.bytes ++ content) length.toNat content.length content

/-- How binary data are refused, and what is left then. -/
inductive RefusesBinary : Bytes → Error → Bytes → Prop where
  | cut {input left : Bytes} {needed got : Nat} (cut : IsCutShort input needed got left) :
      RefusesBinary input (Fault.bufferTooSmall needed got) left

/-- How a text is refused: as binary data are, or for what it holds. -/
inductive RefusesText : Bytes → Error → Bytes → Prop where
  | cut {input left : Bytes} {error : Error} (refused : RefusesBinary input error left) :
      RefusesText input error left
  | malformed {form : BinaryForm} {left : Bytes} (malformed : ¬Utf8.IsWellFormed form.content) :
      RefusesText (form.bytes ++ left) (Fault.invalidUtf8 (Utf8.firstFault form.content)) left

/-- How a pair is refused: as its key is, or behind its key as its value is. -/
inductive RefusesPair : Bytes → Error → Bytes → Prop where
  | key {input left : Bytes} {error : Error} (refused : RefusesText input error left) :
      RefusesPair input error left
  | value {key : TextForm} {input left : Bytes} {error : Error}
      (refused : RefusesText input error left) : RefusesPair (key.bytes ++ input) error left

theorem Word.exists_or_short (input : Bytes) :
    input.length < 2 ∨ ∃ (word : Word) (rest : Bytes), word.bytes ++ rest = input := by
  obtain _ | ⟨high, _ | ⟨low, rest⟩⟩ := input
  · exact .inl (Nat.zero_lt_succ 1)
  · exact .inl (Nat.one_lt_succ_succ 0)
  · exact .inr ⟨⟨high, low⟩, rest, rfl⟩

namespace Reader

/-! ## One spelling -/

/-- What stands in front of the rest is the same wherever the same value is read. -/
def HasOneSpelling (reader : Reader α) : Prop :=
  ∀ ⦃value front front' rest rest'⦄, reader (front ++ rest) = .ok value rest →
    reader (front' ++ rest') = .ok value rest' → front = front'

theorem Inverts.hasOneSpelling {reader : Reader α} {draft : α → Draft}
    (inverts : reader.Inverts draft) : reader.HasOneSpelling := by
  intro value front front' rest rest' read read'
  obtain ⟨bytes, written, whole⟩ := inverts.1 read
  obtain ⟨bytes', written', whole'⟩ := inverts.1 read'
  obtain rfl := List.append_cancel_right whole
  obtain rfl := List.append_cancel_right whole'
  exact Except.ok.inj (written.symm.trans written')

/-! ## Binary data -/

/-- Behind the length, the content is taken. -/
theorem binary_of_word (length : Word) (rest : Bytes) :
    binary (length.bytes ++ rest) = take length.toNat rest := by
  rw [← length.toNat_value]
  rfl

theorem binary_of_short {input : Bytes} (few : input.length < 2) :
    binary input = .error (Fault.bufferTooSmall 2 input.length) input := by
  obtain _ | ⟨high, _ | ⟨low, rest⟩⟩ := input
  · rfl
  · rfl
  · simp only [List.length_cons] at few
    omega

theorem binary_of_isCutShort {input left : Bytes} {needed got : Nat}
    (cut : IsCutShort input needed got left) :
    binary input = .error (Fault.bufferTooSmall needed got) left := by
  cases cut with
  | length few => exact binary_of_short few
  | content few => rw [binary_of_word, take_of_short few]

theorem binary_eq_error_iff {input left : Bytes} {error : Error} :
    binary input = .error error left ↔ RefusesBinary input error left := by
  constructor
  · intro failed
    obtain few | ⟨length, content, rfl⟩ := Word.exists_or_short input
    · rw [binary_of_short few] at failed
      cases failed
      exact .cut (.length few)
    · rw [binary_of_word] at failed
      by_cases few : content.length < length.toNat
      · rw [take_of_short few] at failed
        cases failed
        exact .cut (.content few)
      · have taken : take length.toNat content =
            .ok (content.take length.toNat) (content.drop length.toNat) :=
          take_eq_ok.2 ⟨List.length_take_of_le (Nat.not_lt.1 few), List.take_append_drop ..⟩
        rw [taken] at failed
        cases failed
  · intro refused
    cases refused with
    | cut cut => exact binary_of_isCutShort cut

theorem binary_of_form (form : BinaryForm) (rest : Bytes) :
    binary (form.bytes ++ rest) = .ok form.content rest :=
  inverts_binary.read ((BinaryForm.written_iff _ _).2 ⟨form, rfl, rfl⟩) rest

/-! ## Texts -/

theorem text_of_malformed {form : BinaryForm} (malformed : ¬Utf8.IsWellFormed form.content)
    (rest : Bytes) :
    text (form.bytes ++ rest) =
      .error (Fault.invalidUtf8 (Utf8.firstFault form.content)) rest := by
  refine bind_eq_error.2 (.inr ⟨form.content, rest, binary_of_form form rest, ?_⟩)
  rw [Utf8.decode?_eq_none_iff.2 malformed]
  rfl

theorem text_eq_error_iff {input left : Bytes} {error : Error} :
    text input = .error error left ↔ RefusesText input error left := by
  constructor
  · intro failed
    obtain cut | ⟨content, rest, read, refused⟩ := bind_eq_error.1 failed
    · exact .cut (binary_eq_error_iff.1 cut)
    · obtain ⟨bytes, written, rfl⟩ := inverts_binary.1 read
      obtain ⟨form, rfl, rfl⟩ := (BinaryForm.written_iff _ _).1 written
      cases known : Utf8.decode? form.content with
      | some value =>
          rw [known] at refused
          cases refused
      | none =>
          rw [known] at refused
          cases refused
          exact .malformed (Utf8.decode?_eq_none_iff.1 known)
  · intro refused
    cases refused with
    | cut refused => exact bind_eq_error.2 (.inl (binary_eq_error_iff.2 refused))
    | malformed malformed => exact text_of_malformed malformed left

/-- A text is read from legal sequences behind their number of bytes. -/
theorem text_eq_ok_iff_sequences {input rest : Bytes} {value : String} :
    text input = .ok value rest ↔ ∃ (form : BinaryForm) (sequences : List Utf8.Sequence),
      (∀ sequence ∈ sequences, sequence.IsLegal) ∧
      sequences.flatMap Utf8.Sequence.bytes = form.content ∧
      sequences.map Utf8.Sequence.codePoint = value.toList.map Char.toNat ∧
      form.bytes ++ rest = input := by
  constructor
  · intro read
    obtain ⟨bytes, written, rfl⟩ := inverts_text.1 read
    obtain ⟨form, rfl, rfl⟩ := (TextForm.written_iff _ _).1 written
    obtain ⟨sequences, legal, whole, codes⟩ :=
      Utf8.decode?_eq_some_iff_sequences.1 (Utf8.decode?_encode form.text)
    exact ⟨⟨form.length, Utf8.encode form.text, form.measured⟩, sequences, legal, whole, codes,
      rfl⟩
  · intro spelled
    obtain ⟨form, sequences, legal, whole, codes, rfl⟩ := spelled
    have decoded := Utf8.decode?_eq_some_iff_sequences.2 ⟨sequences, legal, whole, codes⟩
    refine bind_eq_ok.2 ⟨form.content, rest, binary_of_form form rest, ?_⟩
    rw [decoded]
    rfl

/-! ## Pairs -/

theorem pair_eq_error_iff {input left : Bytes} {error : Error} :
    TextPair.reader input = .error error left ↔ RefusesPair input error left := by
  constructor
  · intro failed
    obtain inKey | ⟨key, rest, read, behind⟩ := bind_eq_error.1 failed
    · exact .key (text_eq_error_iff.1 inKey)
    · obtain ⟨bytes, written, rfl⟩ := inverts_text.1 read
      obtain ⟨form, rfl, rfl⟩ := (TextForm.written_iff _ _).1 written
      obtain inValue | ⟨value, rest', -, done⟩ := bind_eq_error.1 behind
      · exact .value (text_eq_error_iff.1 inValue)
      · cases done
  · intro refused
    cases refused with
    | key refused => exact bind_eq_error.2 (.inl (text_eq_error_iff.2 refused))
    | @value key input _ _ refused =>
        have read := inverts_text.read ((TextForm.written_iff _ _).2 ⟨key, rfl, rfl⟩) input
        exact bind_eq_error.2 (.inr ⟨key.text, input, read,
          bind_eq_error.2 (.inl (text_eq_error_iff.2 refused))⟩)

/-! ## Every field behind its length -/

/-- A field is read from the bytes that are written for its value, and is refused with what can
    be wrong with other bytes. No text is read from a sequence that is overlong, a surrogate or
    out of range. -/
theorem fields_read_or_refused :
    (Inverts binary .binary ∧ Inverts text .text ∧ Inverts TextPair.reader TextPair.draft) ∧
    (HasOneSpelling binary ∧ HasOneSpelling text ∧ HasOneSpelling TextPair.reader) ∧
    (∀ input value rest, text input = .ok value rest ↔
      ∃ (form : BinaryForm) (sequences : List Utf8.Sequence),
        (∀ sequence ∈ sequences, sequence.IsLegal) ∧
        sequences.flatMap Utf8.Sequence.bytes = form.content ∧
        sequences.map Utf8.Sequence.codePoint = value.toList.map Char.toNat ∧
        form.bytes ++ rest = input) ∧
    (∀ (form : BinaryForm) (sequences : List Utf8.Sequence),
      sequences.flatMap Utf8.Sequence.bytes = form.content → ∀ sequence ∈ sequences,
        sequence.IsOverlong ∨ sequence.IsSurrogate ∨ sequence.IsOutOfRange → ∀ rest,
          text (form.bytes ++ rest) =
            .error (Fault.invalidUtf8 (Utf8.firstFault form.content)) rest) ∧
    (∀ input error left, binary input = .error error left ↔ RefusesBinary input error left) ∧
    (∀ input error left, text input = .error error left ↔ RefusesText input error left) ∧
    ∀ input error left, TextPair.reader input = .error error left ↔
      RefusesPair input error left := by
  refine ⟨⟨inverts_binary, inverts_text, inverts_pair⟩,
    ⟨inverts_binary.hasOneSpelling, inverts_text.hasOneSpelling, inverts_pair.hasOneSpelling⟩,
    fun _ _ _ => text_eq_ok_iff_sequences, ?_, fun _ _ _ => binary_eq_error_iff,
    fun _ _ _ => text_eq_error_iff, fun _ _ _ => pair_eq_error_iff⟩
  intro form sequences whole sequence member illegal rest
  refine text_of_malformed ?_ rest
  rw [← whole, Utf8.isWellFormed_flatMap_iff]
  intro legal
  obtain ⟨notOverlong, notSurrogate, inRange⟩ := legal sequence member
  exact illegal.elim notOverlong fun illegal => illegal.elim notSurrogate inRange

/-- The one spelling of the empty text, an overlong null character, a pair that is read, and one
    whose value is cut short. -/
theorem fields_read_or_refused_null :
    (∀ front rest, text (front ++ rest) = .ok "" rest → front = [0, 0]) ∧
      Utf8.Sequence.IsOverlong (.two 0 0) ∧
      text [0, 2, 0xC0, 0x80, 7] = .error (Fault.invalidUtf8 ⟨0, some 1⟩) [7] ∧
      TextPair.reader [0, 1, 107, 0, 0, 9] = .ok ⟨"k", ""⟩ [9] ∧
      TextPair.reader [0, 1, 107, 0] = .error (Fault.bufferTooSmall 2 1) [0] := by
  obtain ⟨⟨-, invertsText, invertsPair⟩, ⟨-, oneSpelling, -⟩, -, refused, -, -, refusedPair⟩ :=
    fields_read_or_refused
  have empty : text ([0, 0] ++ []) = .ok "" [] := invertsText.2 ⟨[0, 0], rfl, rfl⟩
  have overlong : Utf8.Sequence.IsOverlong (.two 0 0) := ⟨.one 0, rfl, Nat.one_lt_succ_succ 0⟩
  let null : BinaryForm := ⟨⟨0, 2⟩, [0xC0, 0x80], rfl⟩
  let key : TextForm := ⟨⟨0, 1⟩, "k", rfl⟩
  have short : RefusesText [0] (Fault.bufferTooSmall 2 1) [0] :=
    .cut (.cut (.length (Nat.one_lt_succ_succ 0)))
  refine ⟨fun front rest read => oneSpelling read empty, overlong, ?_,
    invertsPair.2 ⟨[0, 1, 107, 0, 0], rfl, rfl⟩, ?_⟩
  · exact refused null [.two 0 0] rfl _ (List.mem_singleton_self _) (.inl overlong) [7]
  · exact (refusedPair (key.bytes ++ [0]) _ _).2 (.value short)

end Reader

end MqttWire
