import MqttWire.Proofs.Reports

/-! # Readers that run out of bytes

A reader goes through its input from front to back. What it makes of some bytes is therefore
what it makes of them when others follow, except that it may have asked for bytes that were
not there. So a proper beginning of what a reader takes leaves it short of bytes.
-/

namespace MqttWire

/-- A field asks for more bytes than there are. -/
def Error.IsShortage (error : Error) : Prop :=
  ∃ needed got, got < needed ∧ error = Fault.bufferTooSmall needed got

namespace Reader

/-- Bytes that follow are left alone and change nothing, except after a shortage. -/
structure Steady (reader : Reader α) : Prop where
  ok {input rest : Bytes} {value : α} (read : reader input = .ok value rest) (more : Bytes) :
    reader (input ++ more) = .ok value (rest ++ more)
  error {input rest : Bytes} {error : Error} (failed : reader input = .error error rest) :
    error.IsShortage ∨ ∀ more, reader (input ++ more) = .error error (rest ++ more)

/-! ## Single fields -/

theorem steady_pure (value : α) : Steady (pure value) where
  ok := by
    rintro _ _ _ ⟨⟩ more
    rfl
  error := nofun

theorem steady_throw (error : Error) : Steady (throw error : Reader α) where
  ok := nofun
  error := by
    rintro _ _ _ ⟨⟩
    exact .inr fun _ => rfl

theorem steady_lift (result : Except Error α) : Steady (lift result) := by
  cases result with
  | ok value => exact steady_pure value
  | error error => exact steady_throw error

theorem Steady.bind {reader : Reader α} {next : α → Reader β} (first : reader.Steady)
    (second : ∀ found, (next found).Steady) : Steady (reader >>= next) where
  ok := by
    intro input rest value read more
    obtain ⟨found, left, begun, ended⟩ := bind_eq_ok.1 read
    exact bind_eq_ok.2 ⟨found, left ++ more, first.ok begun more, (second found).ok ended more⟩
  error := by
    intro input rest error failed
    obtain failed | ⟨found, left, begun, failed⟩ := bind_eq_error.1 failed
    · refine (first.error failed).imp_right fun steady more => ?_
      exact bind_eq_error.2 (.inl (steady more))
    · refine ((second found).error failed).imp_right fun steady more => ?_
      exact bind_eq_error.2 (.inr ⟨found, left ++ more, first.ok begun more, steady more⟩)

theorem Steady.map {reader : Reader α} (steady : reader.Steady) (f : α → β) :
    Steady (f <$> reader) := by
  rw [map_eq_pure_bind]
  exact steady.bind fun _ => steady_pure _

/-- What is wrong with the bytes of such a field can only be that they are too few. -/
theorem Accepts.steady {reader : Reader α} {spells : α → Bytes → Prop}
    (accepts : reader.Accepts spells) (short : reader.Reports Error.IsShortage) :
    reader.Steady where
  ok := by
    intro input rest value read more
    obtain ⟨bytes, spelled, rfl⟩ := accepts.1 read
    rw [List.append_assoc]
    exact accepts.read spelled _
  error := fun failed => .inl (short failed)

theorem steady_byte : byte.Steady := by
  refine inverts_byte.steady ?_
  rintro ⟨⟩ _ _ ⟨⟩
  exact ⟨1, 0, Nat.one_pos, rfl⟩

theorem steady_uint16 : uint16.Steady := by
  refine inverts_uint16.steady ?_
  rintro (_ | ⟨_, _ | ⟨_, _⟩⟩) _ _ ⟨⟩
  · exact ⟨2, 0, by decide, rfl⟩
  · exact ⟨2, 1, by decide, rfl⟩

theorem steady_uint32 : uint32.Steady := by
  refine inverts_uint32.steady ?_
  rintro (_ | ⟨_, _ | ⟨_, _ | ⟨_, _ | ⟨_, _⟩⟩⟩⟩) _ _ ⟨⟩
  · exact ⟨4, 0, by decide, rfl⟩
  · exact ⟨4, 1, by decide, rfl⟩
  · exact ⟨4, 2, by decide, rfl⟩
  · exact ⟨4, 3, by decide, rfl⟩

theorem steady_take (count : Nat) : (take count).Steady where
  ok := by
    intro input rest value read more
    obtain ⟨counted, rfl⟩ := take_eq_ok.1 read
    exact take_eq_ok.2 ⟨counted, (List.append_assoc ..).symm⟩
  error := by
    intro input rest error failed
    simp only [take] at failed
    split at failed
    · rename_i short
      cases failed
      exact .inl ⟨count, _, short, rfl⟩
    · cases failed

theorem steady_binary : binary.Steady :=
  steady_uint16.bind fun _ => steady_take _

theorem steady_text : text.Steady := by
  refine steady_binary.bind fun raw => ?_
  cases Utf8.decode? raw with
  | some text => exact steady_pure text
  | none => exact steady_throw _

end Reader

theorem VarInt.steady_read : ∀ more, Reader.Steady (read Reader.byte more)
  | 0 => Reader.steady_throw _
  | more + 1 => by
      refine Reader.steady_byte.bind fun byte => ?_
      split
      · exact Reader.steady_pure _
      · exact (steady_read more).bind fun _ => Reader.steady_pure _

theorem VarInt.steady_reader : reader.Steady := steady_read 4

theorem TextPair.steady_reader : reader.Steady :=
  Reader.steady_text.bind fun _ => Reader.steady_text.bind fun _ => Reader.steady_pure _

theorem Datum.steady_reader : (kind : DatumKind) → (reader kind).Steady
  | .byte => Reader.steady_byte.map _
  | .uint16 => Reader.steady_uint16.map _
  | .uint32 => Reader.steady_uint32.map _
  | .varInt => VarInt.steady_reader.map _
  | .text => Reader.steady_text.map _
  | .pair => TextPair.steady_reader.map _
  | .binary => Reader.steady_binary.map _

theorem Property.steady_reader : reader.Steady := by
  refine VarInt.steady_reader.bind fun code => ?_
  cases PropertyId.ofCode? code with
  | none => exact Reader.steady_throw _
  | some id => exact (Datum.steady_reader id.kind).bind fun _ => Reader.steady_lift _

namespace Reader

/-- A proper beginning of what a reader takes leaves it short of bytes. -/
theorem Steady.runs_short {reader : Reader α} (steady : reader.Steady) {front back : Bytes}
    {value : α} (whole : reader (front ++ back) = .ok value []) (more : back ≠ []) :
    ∃ error left, error.IsShortage ∧ reader front = .error error left := by
  cases read : reader front with
  | ok found left =>
      have extended := steady.ok read back
      rw [whole] at extended
      injection extended with _ sameRest
      exact absurd (List.append_eq_nil_iff.1 sameRest.symm).2 more
  | error error left =>
      obtain shortage | steady := steady.error read
      · exact ⟨error, left, shortage, rfl⟩
      · have extended := steady back
        rw [whole] at extended
        cases extended

/-! ## Repeated items -/

theorem all_of_error {reader : Reader α} {input left : Bytes} {error : Error}
    (failed : reader input = .error error left) : reader.all input = .error error := by
  rw [all, failed]

section Repetition

variable {item : Reader α} {advances : item.Advances} {input rest : Bytes}

theorem untilEndFrom_of_error {error : Error} (some : input ≠ [])
    (failed : item input = .error error rest) (found : List α) :
    untilEndFrom item advances found input = .error error rest := by
  rw [untilEndFrom, if_neg (mt List.isEmpty_iff.1 some)]
  split
  case h_1 read' =>
    rw [failed] at read'
    cases read'
  case h_2 read' =>
    rw [failed] at read'
    cases read'
    rfl

/-- Behind whole items, the reader stops where it stops without them. -/
theorem untilEnd_of_error {spells : α → Bytes → Prop} (accepts : item.Accepts spells)
    {values : List α} {parts : List Bytes} (spelled : List.Forall₂ spells values parts)
    {error : Error} (some : input ≠ []) (failed : item input = .error error rest) :
    untilEnd item advances (parts.flatten ++ input) = .error error rest := by
  have behind (found : List α) :
      untilEndFrom item advances found (parts.flatten ++ input) = .error error rest := by
    induction spelled generalizing found with
    | nil => exact untilEndFrom_of_error some failed found
    | cons first _ ih =>
        rw [List.flatten_cons, List.append_assoc, untilEndFrom_of_ok (accepts.read first _)]
        exact ih _
  exact behind []

end Repetition

end Reader

end MqttWire
