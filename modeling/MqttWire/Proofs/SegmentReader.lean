import MqttWire.Proofs.Segment

/-! # Readers of segments

A reader is described by the sequences of segments that stand for its values.
Descriptions compose along the steps of a reader, so that the reader of a body
is treated field by field. Readers that take what they need and readers that go
on to the end of the input are told apart.
-/

namespace MqttWire.Reader

/-- What the reader takes off the front of the input is spelled by a form of the
    value. -/
def Takes (reader : Reader α) (forms : α → List Segment → Prop) : Prop :=
  reader.Accepts fun value bytes => ∃ segments, forms value segments ∧ IsSpelling segments bytes

/-- The inputs that the reader uses up are spelled by a form of the value. -/
def UsesUp (reader : Reader α) (forms : α → List Segment → Prop) : Prop :=
  ∀ ⦃input value⦄, reader input = .ok value [] ↔
    ∃ segments, forms value segments ∧ IsSpelling segments input

variable {reader : Reader α} {forms : α → List Segment → Prop}

theorem Takes.usesUp (takes : reader.Takes forms) : reader.UsesUp forms := by
  intro input value
  constructor
  · intro read
    obtain ⟨bytes, spelled, whole⟩ := takes.1 read
    rw [List.append_nil] at whole
    exact whole ▸ spelled
  · intro spelled
    exact takes.2 ⟨input, spelled, List.append_nil input⟩

theorem Takes.congr {forms' : α → List Segment → Prop} (takes : reader.Takes forms)
    (same : ∀ value segments, forms value segments ↔ forms' value segments) :
    reader.Takes forms' := by
  apply Accepts.congr takes
  intro value bytes
  simp only [same]

theorem UsesUp.congr {forms' : α → List Segment → Prop} (uses : reader.UsesUp forms)
    (same : ∀ value segments, forms value segments ↔ forms' value segments) :
    reader.UsesUp forms' := by
  intro input value
  simp only [← same]
  exact @uses input value

theorem Takes.inField (takes : reader.Takes forms) (field : Field) :
    (reader.inField field).Takes forms :=
  Accepts.within takes (.field field)

theorem Takes.map (takes : reader.Takes forms) (f : α → β) :
    (f <$> reader).Takes fun value segments => ∃ found, f found = value ∧ forms found segments := by
  apply Accepts.congr (Accepts.map takes f)
  intro value bytes
  constructor
  · intro spelled
    obtain ⟨found, same, segments, form, spelling⟩ := spelled
    exact ⟨segments, ⟨found, same, form⟩, spelling⟩
  · intro spelled
    obtain ⟨segments, ⟨found, same, form⟩, spelling⟩ := spelled
    exact ⟨found, same, segments, form, spelling⟩

/-! ## Single steps -/

theorem takes_pure (value : α) :
    Takes (pure value) fun found segments => value = found ∧ segments = [] := by
  intro input found rest
  rw [pure_eq_ok]
  constructor
  · intro read
    obtain ⟨rfl, rfl⟩ := read
    exact ⟨[], ⟨[], ⟨rfl, rfl⟩, isSpelling_nil.2 rfl⟩, rfl⟩
  · intro spelled
    obtain ⟨_, ⟨_, ⟨same, rfl⟩, nothing⟩, rfl⟩ := spelled
    cases isSpelling_nil.1 nothing
    exact ⟨same, rfl⟩

theorem takes_lift (result : Except Error α) :
    Takes (lift result) fun value segments => result = .ok value ∧ segments = [] := by
  intro input value rest
  rw [lift_eq_ok]
  constructor
  · intro read
    obtain ⟨known, rfl⟩ := read
    exact ⟨[], ⟨[], ⟨known, rfl⟩, isSpelling_nil.2 rfl⟩, rfl⟩
  · intro spelled
    obtain ⟨_, ⟨_, ⟨known, rfl⟩, nothing⟩, rfl⟩ := spelled
    cases isSpelling_nil.1 nothing
    exact ⟨known, rfl⟩

theorem isSpelling_single_field {draft : Draft} {bytes : Bytes} :
    IsSpelling [.field draft] bytes ↔ draft.toExcept = .ok bytes := by
  rw [isSpelling_field]
  constructor
  · intro spelled
    obtain ⟨front, _, written, nothing, rfl⟩ := spelled
    rw [isSpelling_nil.1 nothing, List.append_nil]
    exact written
  · intro written
    exact ⟨bytes, [], written, isSpelling_nil.2 rfl, List.append_nil bytes⟩

theorem Inverts.takes {draft : α → Draft} (inverts : reader.Inverts draft) :
    reader.Takes fun value segments => segments = [.field (draft value)] := by
  apply Accepts.congr inverts
  intro value bytes
  rw [exists_eq_left, isSpelling_single_field]

/-- A field that is written under its name. -/
theorem Inverts.takes_inField {draft : α → Draft} (inverts : reader.Inverts draft)
    (field : Field) :
    (reader.inField field).Takes fun value segments =>
      segments = [.field ((draft value).inField field)] := by
  apply Accepts.congr (inverts.takes.inField field)
  intro value bytes
  simp only [exists_eq_left, isSpelling_single_field, Draft.toExcept_inField_eq_ok]

theorem takes_block (name : Field) :
    (Properties.reader.inField name).Takes fun properties segments =>
      segments = [.block name properties] := by
  apply Accepts.congr (Block.accepts_reader.within (.field name))
  intro properties bytes
  rw [exists_eq_left, isSpelling_block]
  constructor
  · intro spelled
    exact ⟨bytes, [], spelled, isSpelling_nil.2 rfl, List.append_nil bytes⟩
  · intro spelled
    obtain ⟨front, _, spelled, nothing, rfl⟩ := spelled
    rw [isSpelling_nil.1 nothing, List.append_nil]
    exact spelled

theorem usesUp_rest :
    rest.UsesUp fun content segments => segments = [.field (.raw content)] := by
  intro input content
  rw [exists_eq_left, isSpelling_single_field, Draft.toExcept_raw, Except.ok.injEq]
  constructor
  · intro read
    cases read
    rfl
  · rintro rfl
    rfl

theorem usesUp_untilEnd {item : Reader α} {advances : item.Advances} {draft : α → Draft}
    (inverts : item.Inverts draft) :
    (untilEnd item advances).UsesUp fun values segments =>
      segments = [.field (.concat (values.map draft))] := by
  intro input values
  rw [exists_eq_left, isSpelling_single_field, untilEnd_eq_ok inverts,
    toExcept_concat_map_eq_ok]
  exact and_iff_right rfl

/-! ## Steps in sequence -/

section Sequence

variable {next : α → Reader β} {forms' : α → β → List Segment → Prop}

/-- A form of the first value, and then one of what follows. -/
def InSequence (forms : α → List Segment → Prop) (forms' : α → β → List Segment → Prop)
    (value : β) (segments : List Segment) : Prop :=
  ∃ found front back, forms found front ∧ forms' found value back ∧ segments = front ++ back

theorem isSpelling_inSequence {value : β} {bytes : Bytes} :
    (∃ segments, InSequence forms forms' value segments ∧ IsSpelling segments bytes) ↔
      ∃ found front back, (∃ segments, forms found segments ∧ IsSpelling segments front) ∧
        (∃ segments, forms' found value segments ∧ IsSpelling segments back) ∧
        front ++ back = bytes := by
  constructor
  · intro spelled
    obtain ⟨_, ⟨found, first, second, isFirst, isSecond, rfl⟩, spelling⟩ := spelled
    obtain ⟨front, back, spellsFirst, spellsSecond, rfl⟩ := isSpelling_append.1 spelling
    exact ⟨found, front, back, ⟨first, isFirst, spellsFirst⟩, ⟨second, isSecond, spellsSecond⟩, rfl⟩
  · intro parts
    obtain ⟨found, front, back, ⟨first, isFirst, spellsFirst⟩, ⟨second, isSecond, spellsSecond⟩,
      rfl⟩ := parts
    exact ⟨first ++ second, ⟨found, first, second, isFirst, isSecond, rfl⟩,
      isSpelling_append.2 ⟨front, back, spellsFirst, spellsSecond, rfl⟩⟩

theorem Takes.bind (takes : reader.Takes forms) (more : ∀ found, (next found).Takes (forms' found)) :
    (reader >>= next).Takes (InSequence forms forms') := by
  intro input value rest
  simp only [bind_eq_ok, isSpelling_inSequence]
  constructor
  · intro read
    obtain ⟨found, left, readFirst, readSecond⟩ := read
    obtain ⟨front, spellsFirst, rfl⟩ := takes.1 readFirst
    obtain ⟨back, spellsSecond, rfl⟩ := (more found).1 readSecond
    exact ⟨front ++ back, ⟨found, front, back, spellsFirst, spellsSecond, rfl⟩,
      List.append_assoc ..⟩
  · intro spelled
    obtain ⟨_, ⟨found, front, back, spellsFirst, spellsSecond, rfl⟩, rfl⟩ := spelled
    refine ⟨found, back ++ rest, ?_, ?_⟩
    · exact takes.2 ⟨front, spellsFirst, (List.append_assoc ..).symm⟩
    · exact (more found).2 ⟨back, spellsSecond, rfl⟩

theorem Takes.bind_usesUp (takes : reader.Takes forms)
    (more : ∀ found, (next found).UsesUp (forms' found)) :
    (reader >>= next).UsesUp (InSequence forms forms') := by
  intro input value
  simp only [bind_eq_ok, isSpelling_inSequence]
  constructor
  · intro read
    obtain ⟨found, left, readFirst, readSecond⟩ := read
    obtain ⟨front, spellsFirst, rfl⟩ := takes.1 readFirst
    exact ⟨found, front, left, spellsFirst, (more found).1 readSecond, rfl⟩
  · intro spelled
    obtain ⟨found, front, back, spellsFirst, spellsSecond, rfl⟩ := spelled
    exact ⟨found, back, takes.2 ⟨front, spellsFirst, rfl⟩, (more found).2 spellsSecond⟩

theorem UsesUp.map (uses : reader.UsesUp forms) (f : α → β) :
    (reader >>= fun found => pure (f found)).UsesUp fun value segments =>
      ∃ found, f found = value ∧ forms found segments := by
  intro input value
  simp only [bind_eq_ok, pure_eq_ok]
  constructor
  · intro read
    obtain ⟨found, left, readAll, same, rfl⟩ := read
    obtain ⟨segments, form, spelling⟩ := uses.1 readAll
    exact ⟨segments, ⟨found, same, form⟩, spelling⟩
  · intro spelled
    obtain ⟨segments, ⟨found, same, form⟩, spelling⟩ := spelled
    exact ⟨found, [], uses.2 ⟨segments, form, spelling⟩, same, rfl⟩

end Sequence

/-! ## Whole inputs -/

/-- Where the spellings of a value are its forms, a whole input is read as what its form says. -/
theorem UsesUp.all_map_eq_ok (uses : reader.UsesUp forms) {Form : Type} {value : Form → α}
    {formBytes : Form → Bytes} {input : Bytes}
    (spelled_iff : ∀ found, (∃ segments, forms found segments ∧ IsSpelling segments input) ↔
      ∃ form, value form = found ∧ formBytes form = input) (wrap : α → β) {result : β} :
    (wrap <$> reader).all input = .ok result ↔
      ∃ form, formBytes form = input ∧ wrap (value form) = result := by
  have read_iff (found : α) : reader input = .ok found [] ↔
      ∃ form, value form = found ∧ formBytes form = input :=
    (@uses input found).trans (spelled_iff found)
  simp only [all_eq_ok, map_eq_ok, read_iff]
  constructor
  · intro read
    obtain ⟨_, rfl, form, rfl, whole⟩ := read
    exact ⟨form, whole, rfl⟩
  · intro spelled
    obtain ⟨form, whole, rfl⟩ := spelled
    exact ⟨value form, rfl, form, rfl, whole⟩

end MqttWire.Reader
