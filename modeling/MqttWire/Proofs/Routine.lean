import MqttWire.Frame

/-! # Operations that can trap

Splitting bytes off, taking an integer off, slicing and indexing are not defined
beyond the bytes there are, and a sum is not beyond its type. The readers are
total, so they cannot show that such a step is always guarded. A routine keeps
guards and steps apart, as they are carried out: an unguarded step ends it with
a trap, and so does a round of a loop that consumes nothing. A routine runs a
reader when it gives the reader's answer everywhere and never ends with a trap.
-/

namespace MqttWire

/-- A step that is not defined where it is carried out. -/
inductive Trap where
  /-- More bytes are taken off than there are. -/
  | outOfBytes (wanted available : Nat)
  /-- An index or the end of a slice lies past the end. -/
  | outOfRange (place length : Nat)
  /-- A sum is larger than a variable byte integer may be. -/
  | tooLarge (sum : Nat)
  /-- A round of a loop consumes nothing. -/
  | stuck (left : Nat)
  deriving Repr, DecidableEq

/-- Steps on a state that give a value or an error, unless one of them traps. -/
def Routine (σ α : Type) := σ → Except Trap (EStateM.Result Error σ α)

namespace Reader

theorem take_zero : take 0 = pure [] := by
  funext input
  simp [take, pure, EStateM.pure]

theorem all_untilEnd_nil {item : Reader α} {advances : item.Advances} :
    (untilEnd item advances).all [] = .ok [] := by
  simp [all, untilEnd, untilEndFrom]

/-- Every success leaves nothing. -/
def Drains (reader : Reader α) : Prop :=
  ∀ ⦃input value rest⦄, reader input = .ok value rest → rest = []

theorem drains_rest : rest.Drains := by
  intro input value left read
  cases read
  rfl

theorem drains_untilEnd {item : Reader α} {advances : item.Advances} :
    (untilEnd item advances).Drains := by
  have fromHere (found : List α) (input : Bytes) (values : List α) (left : Bytes)
      (read : untilEndFrom item advances found input = .ok values left) : left = [] := by
    fun_induction untilEndFrom item advances found input with
    | case1 => cases read; rfl
    | case2 found input notEmpty value rest step ih => exact ih read
    | case3 => cases read
  exact fun input values left read => fromHere [] input values left read

theorem Drains.after {reader : Reader α} {next : α → Reader β}
    (drains : ∀ found, (next found).Drains) : (reader >>= next).Drains := by
  intro input value left read
  obtain ⟨found, rest, -, ended⟩ := bind_eq_ok.1 read
  exact drains found ended

theorem Drains.map {reader : Reader α} (drains : reader.Drains) (f : α → β) :
    (reader >>= fun found => pure (f found)).Drains := by
  intro input value left read
  obtain ⟨found, rest, begun, ended⟩ := bind_eq_ok.1 read
  cases ended
  exact drains begun

end Reader

namespace Routine

/-- Go on with the value, if neither an error nor a trap has come first. -/
def bind (routine : Routine σ α) (next : α → Routine σ β) : Routine σ β := fun state =>
  match routine state with
  | .ok (.ok value state) => next value state
  | .ok (.error error state) => .ok (.error error state)
  | .error trap => .error trap

instance : Monad (Routine σ) where
  pure value := fun state => .ok (.ok value state)
  bind := bind

/-- End with a trap. -/
def trap (which : Trap) : Routine σ α := fun _ => .error which

/-- A step that never traps. -/
def perform (step : EStateM Error σ α) : Routine σ α := fun state => .ok (step state)

def fail (fault : Fault) : Routine σ α := perform (throw { root := fault })

/-- A result that was computed elsewhere, or the trap that came of it. -/
def call (outcome : Except Trap (Except Error α)) : Routine σ α := fun state =>
  outcome.map fun
    | .ok value => .ok value state
    | .error error => .error error state

def lift (result : Except Error α) : Routine σ α := call (.ok result)

def inField (field : Field) (routine : Routine Bytes α) : Routine Bytes α := fun input =>
  (routine input).map fun
    | .ok value rest => .ok value rest
    | .error error rest => .error (error.within (.field field)) rest

/-- Run on bytes of its own, and give up what is left of them. -/
def on (routine : Routine Bytes α) (bytes : Bytes) : Except Trap (Except Error α) :=
  (routine bytes).map fun
    | .ok value _ => .ok value
    | .error error _ => .error error

/-! ## Guards and the steps they guard -/

/-- Fail unless so many bytes are there. -/
def ensure (count : Nat) : Routine Bytes Unit := perform fun input =>
  if input.length < count then .error (Fault.bufferTooSmall count input.length) input
  else .ok () input

/-- Fail unless nothing is left. -/
def ensureConsumed : Routine Bytes Unit := perform fun input =>
  if input.isEmpty then .ok () input else .error (Fault.trailingBytes input.length) input

def splitTo (count : Nat) : Routine Bytes Bytes := fun input =>
  if count ≤ input.length then .ok (.ok (input.take count) (input.drop count))
  else .error (.outOfBytes count input.length)

def getByte : Routine Bytes UInt8
  | value :: rest => .ok (.ok value rest)
  | [] => .error (.outOfBytes 1 0)

def getUInt16 : Routine Bytes UInt16
  | high :: low :: rest => .ok (.ok (UInt16.ofNat (high.toNat * 256 + low.toNat)) rest)
  | short => .error (.outOfBytes 2 short.length)

def getUInt32 : Routine Bytes UInt32
  | a :: b :: c :: d :: rest =>
      .ok (.ok (UInt32.ofNat (((a.toNat * 256 + b.toNat) * 256 + c.toNat) * 256 + d.toNat)) rest)
  | short => .error (.outOfBytes 4 short.length)

/-- All bytes that are left. -/
def takeRest : Routine Bytes Bytes := fun input => .ok (.ok input [])

/-- The front of bytes up to a place. -/
def slice (bytes : Bytes) (stop : Nat) : Routine σ Bytes :=
  if stop ≤ bytes.length then pure (bytes.take stop) else trap (.outOfRange stop bytes.length)

def index (bytes : Bytes) (place : Nat) : Routine σ UInt8 :=
  match bytes[place]? with
  | some value => pure value
  | none => trap (.outOfRange place bytes.length)

/-- Add to a number that is to stay within the limit of variable byte integers. -/
def accumulate (value more : Nat) : Routine σ Nat :=
  if value + more ≤ maxVarInt then pure (value + more) else trap (.tooLarge (value + more))

/-- Rounds until nothing is left, behind what earlier rounds have found. -/
def whileBytesFrom (round : Routine Bytes α) (found : List α) (input : Bytes) :
    Except Trap (EStateM.Result Error Bytes (List α)) :=
  if input.isEmpty then .ok (.ok found.reverse [])
  else
    match round input with
    | .ok (.ok value rest) =>
        if rest.length < input.length then whileBytesFrom round (value :: found) rest
        else .error (.stuck rest.length)
    | .ok (.error error rest) => .ok (.error error rest)
    | .error trap => .error trap
termination_by input.length

/-- Rounds until nothing is left. -/
def whileBytes (round : Routine Bytes α) : Routine Bytes (List α) := whileBytesFrom round []

example : splitTo 3 [1, 2] = .error (.outOfBytes 3 2) := rfl

/-! ## Running a reader -/

/-- The routine gives the answers of the reader and never ends with a trap. -/
def Runs (routine : Routine σ α) (reader : EStateM Error σ α) : Prop :=
  ∀ state, routine state = .ok (reader state)

section Runs

variable {routine : Routine σ α} {reader : EStateM Error σ α}

theorem runs_pure (value : α) : (pure value : Routine σ α).Runs (pure value) :=
  fun _ => rfl

theorem runs_perform (step : EStateM Error σ α) : (perform step).Runs step :=
  fun _ => rfl

theorem runs_lift (result : Except Error α) : (lift result).Runs (Reader.lift result) := by
  intro input
  cases result <;> rfl

theorem runs_fail (fault : Fault) : (fail fault).Runs (Reader.fail fault : Reader α) :=
  fun _ => rfl

@[simp] theorem pure_bind_eq (value : α) (next : α → Routine σ β) :
    (pure value >>= next : Routine σ β) = next value := rfl

theorem bind_of_runs {next : α → Routine σ β} (runs : routine.Runs reader) (state : σ) :
    (routine >>= next) state =
      match reader state with
      | .ok found state' => next found state'
      | .error error state' => .ok (.error error state') := by
  simp only [Bind.bind, Routine.bind, runs state]
  cases reader state <;> rfl

/-- Steps in sequence, the second of which may rely on what the first has given. -/
theorem Runs.bind_read {next : α → Routine σ β} {next' : α → EStateM Error σ β}
    (first : routine.Runs reader)
    (second : ∀ ⦃state found state'⦄, reader state = .ok found state' →
      (next found).Runs (next' found)) :
    (routine >>= next).Runs (reader >>= next') := by
  intro state
  rw [bind_of_runs first state]
  simp only [Bind.bind, EStateM.bind]
  cases read : reader state with
  | error => rfl
  | ok found state' => exact second read state'

theorem Runs.bind {next : α → Routine σ β} {next' : α → EStateM Error σ β}
    (first : routine.Runs reader) (second : ∀ found, (next found).Runs (next' found)) :
    (routine >>= next).Runs (reader >>= next') :=
  first.bind_read fun _ found _ _ => second found

theorem Runs.map (runs : routine.Runs reader) (f : α → β) :
    (routine >>= fun found => pure (f found)).Runs (f <$> reader) := by
  rw [map_eq_pure_bind]
  exact runs.bind fun found => runs_pure _

end Runs

variable {routine : Routine Bytes α} {reader : Reader α}

theorem Runs.inField (runs : routine.Runs reader) (field : Field) :
    (routine.inField field).Runs (reader.inField field) := by
  intro input
  rw [Routine.inField, runs input, Reader.inField, Reader.within]
  cases reader input <;> rfl

/-- A routine that is to use up the bytes, and checks that it did. -/
theorem Runs.on_consumed (runs : routine.Runs reader) (bytes : Bytes) :
    (do let value ← routine; ensureConsumed; return value : Routine Bytes α).on bytes =
      .ok (reader.all bytes) := by
  simp only [on, bind_of_runs runs, Reader.all]
  cases reader bytes with
  | error => rfl
  | ok value rest => cases rest <;> rfl

theorem runs_whileBytes {advances : reader.Advances} (runs : routine.Runs reader) :
    (whileBytes routine).Runs (Reader.untilEnd reader advances) := by
  have fromHere (found : List α) (input : Bytes) :
      whileBytesFrom routine found input =
        .ok (Reader.untilEndFrom reader advances found input) := by
    fun_induction Reader.untilEndFrom reader advances found input with
    | case1 found input isEmpty => rw [whileBytesFrom, if_pos isEmpty]
    | case2 found input notEmpty value rest read ih =>
        rw [whileBytesFrom, if_neg notEmpty, runs input, read]
        simp only [if_pos (advances read), ih]
    | case3 found input notEmpty error rest read =>
        rw [whileBytesFrom, if_neg notEmpty, runs input, read]
  exact fromHere []

/-- A routine that uses up the bytes in any case. -/
theorem Runs.on_all (runs : routine.Runs reader) (drains : reader.Drains) (bytes : Bytes) :
    routine.on bytes = .ok (reader.all bytes) := by
  simp only [on, runs bytes, Reader.all]
  cases read : reader bytes with
  | error => rfl
  | ok value rest =>
      cases drains read
      rfl

end Routine

end MqttWire
