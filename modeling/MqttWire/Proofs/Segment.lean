import MqttWire.Proofs.Block

/-! # Segments of a body

A packet body is a sequence of segments: fields, which have one written form,
and property blocks, which have many. What holds of single fields and blocks is
carried over to whole sequences here: they are unambiguous, the writer's form is
the one with canonical blocks, and none is shorter.
-/

namespace MqttWire

/-- A stretch of a packet body. -/
inductive Segment where
  /-- A field that is written in one way. -/
  | field (draft : Draft)
  /-- A property block, whose errors name a field. -/
  | block (name : Field) (properties : Properties)

/-- What the writer puts out for the segment. -/
def Segment.draft : Segment → Draft
  | field draft => draft
  | block name properties => properties.draft.inField name

/-- What the writer puts out for segments in order. -/
def writtenSegments (segments : List Segment) : Draft :=
  .concat (segments.map Segment.draft)

theorem writtenSegments_append (first second : List Segment) :
    writtenSegments (first ++ second) = writtenSegments first ++ writtenSegments second := by
  induction first with
  | nil => rfl
  | cons segment first ih =>
      change segment.draft ++ writtenSegments (first ++ second) = _
      rw [ih, ← Draft.append_assoc]
      rfl

theorem writtenSegments_single (draft : Draft) : writtenSegments [.field draft] = draft :=
  draft.append_empty

theorem writtenSegments_elim (value? : Option α) (segments : α → List Segment) :
    writtenSegments (value?.elim [] segments) =
      .optional value? fun value => writtenSegments (segments value) := by
  cases value? <;> rfl

/-- Bytes that stand for segments in order, and the property blocks in them. -/
inductive Spelled : List Segment → List Block → Bytes → Prop where
  | nil : Spelled [] [] []
  | field {draft : Draft} {front back : Bytes} {segments : List Segment} {blocks : List Block}
      (written : draft.toExcept = .ok front) (others : Spelled segments blocks back) :
      Spelled (.field draft :: segments) blocks (front ++ back)
  | block (name : Field) (block : Block) {back : Bytes} {segments : List Segment}
      {blocks : List Block} (others : Spelled segments blocks back) :
      Spelled (.block name block.properties :: segments) (block :: blocks) (block.bytes ++ back)

/-- Bytes that stand for segments in order. -/
def IsSpelling (segments : List Segment) (bytes : Bytes) : Prop :=
  ∃ blocks, Spelled segments blocks bytes

namespace Spelled

theorem append {first second : List Segment} {blocks blocks' : List Block} {front back : Bytes}
    (left : Spelled first blocks front) (right : Spelled second blocks' back) :
    Spelled (first ++ second) (blocks ++ blocks') (front ++ back) := by
  induction left with
  | nil => exact right
  | field written _ ih =>
      rw [List.append_assoc]
      exact .field written ih
  | block name block _ ih =>
      rw [List.append_assoc]
      exact .block name block ih

theorem exists_of_append {first second : List Segment} {blocks : List Block} {bytes : Bytes}
    (spelled : Spelled (first ++ second) blocks bytes) :
    ∃ front back blocks' blocks'', Spelled first blocks' front ∧ Spelled second blocks'' back ∧
      blocks' ++ blocks'' = blocks ∧ front ++ back = bytes := by
  induction first generalizing blocks bytes with
  | nil => exact ⟨[], bytes, [], blocks, .nil, spelled, rfl, rfl⟩
  | cons segment first ih =>
      cases spelled with
      | field written others =>
          obtain ⟨front, back, blocks', blocks'', left, right, rfl, rfl⟩ := ih others
          exact ⟨_, back, blocks', blocks'', .field written left, right, rfl,
            List.append_assoc ..⟩
      | block name block others =>
          obtain ⟨front, back, blocks', blocks'', left, right, rfl, rfl⟩ := ih others
          exact ⟨_, back, _, blocks'', .block name block left, right, rfl, List.append_assoc ..⟩

/-- The same segments are not spelled in two ways by the same bytes. -/
theorem unambiguous {segments : List Segment} {blocks blocks' : List Block}
    {bytes bytes' rest rest' : Bytes} (first : Spelled segments blocks bytes)
    (second : Spelled segments blocks' bytes') (same : bytes ++ rest = bytes' ++ rest') :
    blocks = blocks' ∧ rest = rest' := by
  induction first generalizing blocks' bytes' with
  | nil =>
      cases second
      exact ⟨rfl, same⟩
  | field written others ih =>
      cases second with
      | field written' others' =>
          cases written.symm.trans written'
          rw [List.append_assoc, List.append_assoc] at same
          exact ih others' (List.append_cancel_left same)
  | block name block others ih =>
      generalize blockSegment : Segment.block name block.properties = segment at second
      cases second with
      | field => cases blockSegment
      | block name' block' others' =>
          rw [List.append_assoc, List.append_assoc] at same
          obtain ⟨rfl, sameOthers⟩ := Block.eq_of_append_eq same
          obtain ⟨rfl, sameRest⟩ := ih others' sameOthers
          exact ⟨rfl, sameRest⟩

theorem toExcept_written {segments : List Segment} {blocks : List Block} {bytes : Bytes}
    (spelled : Spelled segments blocks bytes) (canonical : ∀ block ∈ blocks, block.IsCanonical) :
    (writtenSegments segments).toExcept = .ok bytes := by
  induction spelled with
  | nil => rfl
  | field written _ ih =>
      exact Draft.toExcept_append_eq_ok.2 ⟨_, _, written, ih canonical, rfl⟩
  | block name block _ ih =>
      obtain ⟨first, others⟩ := List.forall_mem_cons.1 canonical
      exact Draft.toExcept_append_eq_ok.2
        ⟨_, _, Draft.toExcept_inField_eq_ok.2 (Block.toExcept_draft first), ih others, rfl⟩

theorem exists_of_written {segments : List Segment} {bytes : Bytes}
    (written : (writtenSegments segments).toExcept = .ok bytes) :
    ∃ blocks, Spelled segments blocks bytes ∧ ∀ block ∈ blocks, block.IsCanonical := by
  induction segments generalizing bytes with
  | nil =>
      cases written
      exact ⟨[], .nil, List.forall_mem_nil _⟩
  | cons segment segments ih =>
      obtain ⟨front, back, writtenFirst, writtenOthers, rfl⟩ :=
        Draft.toExcept_append_eq_ok.1 written
      obtain ⟨blocks, others, canonical⟩ := ih writtenOthers
      cases segment with
      | field draft => exact ⟨blocks, .field writtenFirst others, canonical⟩
      | block name properties =>
          obtain ⟨block, rfl, rfl, first⟩ :=
            Block.exists_of_draft (Draft.toExcept_inField_eq_ok.1 writtenFirst)
          exact ⟨block :: blocks, .block name block others,
            List.forall_mem_cons.2 ⟨first, canonical⟩⟩

/-- Segments that were read can be written, and not with more bytes. -/
theorem exists_written {segments : List Segment} {blocks : List Block} {bytes : Bytes}
    (spelled : Spelled segments blocks bytes) :
    ∃ shorter, (writtenSegments segments).toExcept = .ok shorter ∧
      shorter.length ≤ bytes.length := by
  induction spelled with
  | nil => exact ⟨[], rfl, Nat.le_refl _⟩
  | @field _ front _ _ _ written _ ih =>
      obtain ⟨shorter, writtenOthers, notLonger⟩ := ih
      refine ⟨front ++ shorter,
        Draft.toExcept_append_eq_ok.2 ⟨_, _, written, writtenOthers, rfl⟩, ?_⟩
      simpa using notLonger
  | block name block _ ih =>
      obtain ⟨shorter, writtenOthers, notLonger⟩ := ih
      obtain ⟨shorterBlock, writtenBlock, notLonger'⟩ := block.exists_draft
      refine ⟨shorterBlock ++ shorter, Draft.toExcept_append_eq_ok.2
        ⟨_, _, Draft.toExcept_inField_eq_ok.2 writtenBlock, writtenOthers, rfl⟩, ?_⟩
      simp only [List.length_append]
      exact Nat.add_le_add notLonger' notLonger

end Spelled

/-! ## What bytes stand for, without the blocks -/

theorem isSpelling_nil {bytes : Bytes} : IsSpelling [] bytes ↔ bytes = [] := by
  constructor
  · intro read
    obtain ⟨_, ⟨⟩⟩ := read
    rfl
  · rintro rfl
    exact ⟨[], .nil⟩

theorem isSpelling_field {draft : Draft} {segments : List Segment} {bytes : Bytes} :
    IsSpelling (.field draft :: segments) bytes ↔
      ∃ front back, draft.toExcept = .ok front ∧ IsSpelling segments back ∧
        front ++ back = bytes := by
  constructor
  · intro read
    obtain ⟨blocks, ⟨⟩⟩ := read
    rename_i written others
    exact ⟨_, _, written, ⟨blocks, others⟩, rfl⟩
  · intro spelled
    obtain ⟨front, back, written, ⟨blocks, others⟩, rfl⟩ := spelled
    exact ⟨blocks, .field written others⟩

theorem isSpelling_block {name : Field} {properties : Properties} {segments : List Segment}
    {bytes : Bytes} :
    IsSpelling (.block name properties :: segments) bytes ↔
      ∃ front back, Block.Spells properties front ∧ IsSpelling segments back ∧
        front ++ back = bytes := by
  constructor
  · intro read
    obtain ⟨blocks, spelled⟩ := read
    generalize blockSegment : Segment.block name properties = segment at spelled
    cases spelled with
    | field => cases blockSegment
    | block _ block others =>
        cases blockSegment
        exact ⟨_, _, ⟨block, rfl, rfl⟩, ⟨_, others⟩, rfl⟩
  · intro spelled
    obtain ⟨_, back, ⟨block, rfl, rfl⟩, ⟨blocks, others⟩, rfl⟩ := spelled
    exact ⟨block :: blocks, .block name block others⟩

theorem isSpelling_append {first second : List Segment} {bytes : Bytes} :
    IsSpelling (first ++ second) bytes ↔
      ∃ front back, IsSpelling first front ∧ IsSpelling second back ∧ front ++ back = bytes := by
  constructor
  · intro read
    obtain ⟨blocks, spelled⟩ := read
    obtain ⟨front, back, blocks', blocks'', left, right, -, same⟩ := spelled.exists_of_append
    exact ⟨front, back, ⟨blocks', left⟩, ⟨blocks'', right⟩, same⟩
  · intro spelled
    obtain ⟨front, back, ⟨blocks', left⟩, ⟨blocks'', right⟩, rfl⟩ := spelled
    exact ⟨blocks' ++ blocks'', left.append right⟩

end MqttWire
