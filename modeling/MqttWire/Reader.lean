import MqttWire.Error

/-! # Readers

A reader takes a value off the front of a byte sequence and leaves the rest, or
fails with an error and the rest as it was at the failure. `Reader.untilEnd`
repeats an item until nothing is left; it asks for a proof that the item
consumes something, which is why it ends.
-/

namespace MqttWire

/-- Takes an `α` off the front of a byte sequence. -/
abbrev Reader (α : Type) := EStateM Error Bytes α

namespace Reader

/-- Fail with a cause, consuming nothing. -/
def fail (fault : Fault) : Reader α := throw { root := fault }

/-- A result that needs no bytes. -/
def lift : Except Error α → Reader α
  | .ok value => pure value
  | .error error => throw error

def within (layer : Layer) (reader : Reader α) : Reader α := fun input =>
  match reader input with
  | .ok value rest => .ok value rest
  | .error error rest => .error (error.within layer) rest

def inField (field : Field) (reader : Reader α) : Reader α :=
  reader.within (.field field)

/-- Run a reader, which must use up the input. -/
def all (reader : Reader α) (input : Bytes) : Except Error α :=
  match reader input with
  | .ok value [] => .ok value
  | .ok _ rest => .error (Fault.trailingBytes rest.length)
  | .error error _ => .error error

/-- The next `count` bytes. -/
def take (count : Nat) : Reader Bytes := fun input =>
  let front := input.take count
  if front.length < count then .error (Fault.bufferTooSmall count front.length) input
  else .ok front (input.drop count)

def rest : Reader Bytes := fun input => .ok input []

def byte : Reader UInt8
  | [] => .error (Fault.bufferTooSmall 1 0) []
  | value :: rest => .ok value rest

/-- A two byte integer, high byte first. -/
def uint16 : Reader UInt16
  | high :: low :: rest => .ok (UInt16.ofNat (high.toNat * 256 + low.toNat)) rest
  | short => .error (Fault.bufferTooSmall 2 short.length) short

/-- A four byte integer, high byte first. -/
def uint32 : Reader UInt32
  | a :: b :: c :: d :: rest =>
      .ok (UInt32.ofNat (((a.toNat * 256 + b.toNat) * 256 + c.toNat) * 256 + d.toNat)) rest
  | short => .error (Fault.bufferTooSmall 4 short.length) short

def binary : Reader Bytes := do
  let length ← uint16
  take length.toNat

def text : Reader String := do
  let raw ← binary
  match Utf8.decode? raw with
  | some text => pure text
  | none => fail (.invalidUtf8 (Utf8.firstFault raw))

/-! ## Progress -/

/-- No success leaves more bytes than there were. -/
def Shortens (reader : Reader α) : Prop :=
  ∀ ⦃input value rest⦄, reader input = .ok value rest → rest.length ≤ input.length

/-- Every success leaves fewer bytes than there were. -/
def Advances (reader : Reader α) : Prop :=
  ∀ ⦃input value rest⦄, reader input = .ok value rest → rest.length < input.length

theorem Advances.shortens {reader : Reader α} (advances : reader.Advances) : reader.Shortens :=
  fun _ _ _ read => Nat.le_of_lt (advances read)

theorem bind_eq_ok {reader : Reader α} {next : α → Reader β} {input rest : Bytes} {value : β} :
    (reader >>= next) input = .ok value rest ↔
      ∃ found left, reader input = .ok found left ∧ next found left = .ok value rest := by
  simp only [bind, EStateM.bind]
  cases reader input with
  | ok found left =>
      constructor
      · exact fun ended => ⟨found, left, rfl, ended⟩
      · rintro ⟨_, _, begun, ended⟩
        cases begun
        exact ended
  | error => exact ⟨nofun, nofun⟩

theorem within_eq_ok {reader : Reader α} {layer : Layer} {input rest : Bytes} {value : α} :
    reader.within layer input = .ok value rest ↔ reader input = .ok value rest := by
  unfold within
  split <;> simp_all

theorem shortens_pure (value : α) : Shortens (pure value) := by
  intro _ _ _ read
  cases read
  exact Nat.le_refl _

theorem shortens_throw (error : Error) : Shortens (throw error : Reader α) := by
  intro _ _ _ read
  cases read

theorem shortens_fail (fault : Fault) : Shortens (fail fault : Reader α) :=
  shortens_throw _

theorem shortens_lift (result : Except Error α) : Shortens (lift result) := by
  cases result
  · exact shortens_throw _
  · exact shortens_pure _

theorem Shortens.bind {reader : Reader α} {next : α → Reader β} (first : reader.Shortens)
    (second : ∀ found, (next found).Shortens) : Shortens (reader >>= next) := by
  intro _ _ _ read
  obtain ⟨found, left, begun, ended⟩ := bind_eq_ok.1 read
  exact Nat.le_trans (second found ended) (first begun)

theorem Advances.bind {reader : Reader α} {next : α → Reader β} (first : reader.Advances)
    (second : ∀ found, (next found).Shortens) : Advances (reader >>= next) := by
  intro _ _ _ read
  obtain ⟨found, left, begun, ended⟩ := bind_eq_ok.1 read
  exact Nat.lt_of_le_of_lt (second found ended) (first begun)

theorem Shortens.within {reader : Reader α} (shortens : reader.Shortens) (layer : Layer) :
    (reader.within layer).Shortens :=
  fun _ _ _ read => shortens (within_eq_ok.1 read)

theorem Advances.within {reader : Reader α} (advances : reader.Advances) (layer : Layer) :
    (reader.within layer).Advances :=
  fun _ _ _ read => advances (within_eq_ok.1 read)

theorem shortens_take (count : Nat) : (take count).Shortens := by
  intro input value rest read
  simp only [take] at read
  split at read
  · cases read
  · cases read
    simp

theorem advances_byte : byte.Advances := by
  intro input value rest read
  cases input <;> cases read
  simp

theorem advances_uint16 : uint16.Advances := by
  intro input value rest read
  unfold uint16 at read
  split at read <;> cases read
  simp only [List.length_cons]
  omega

theorem advances_uint32 : uint32.Advances := by
  intro input value rest read
  unfold uint32 at read
  split at read <;> cases read
  simp only [List.length_cons]
  omega

theorem advances_binary : binary.Advances :=
  advances_uint16.bind fun _ => shortens_take _

theorem advances_text : text.Advances := by
  refine advances_binary.bind fun raw => ?_
  cases Utf8.decode? raw
  · exact shortens_fail _
  · exact shortens_pure _

/-! ## Repetition -/

/-- Read items until nothing is left, behind the ones already found. -/
def untilEndFrom (item : Reader α) (advances : item.Advances) (found : List α)
    (input : Bytes) : EStateM.Result Error Bytes (List α) :=
  if input.isEmpty then .ok found.reverse []
  else
    match _step : item input with
    | .ok value rest => untilEndFrom item advances (value :: found) rest
    | .error error rest => .error error rest
termination_by input.length
decreasing_by exact advances _step

/-- Read items until nothing is left. -/
def untilEnd (item : Reader α) (advances : item.Advances) : Reader (List α) :=
  untilEndFrom item advances []

end Reader

end MqttWire
