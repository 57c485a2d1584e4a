import MqttWire.Proofs.Framing
import MqttWire.Stream.Source

/-! # Packets from a source

Reading from a source comes to the same as reading from a buffer with the bytes
that the source hands out before it ends or fails, whatever the sizes of the
pieces, which may differ from one to the next. The one difference is that where the buffer is too short, the source
reports why it gives no more. And a source is never asked for a byte beyond those
that decide the answer, so packet after packet can be read from it.
-/

namespace MqttWire

namespace Source

/-- The bytes that can be had before the source ends or fails. -/
def reachable (source : Source) : Bytes :=
  source.failAt?.elim source.pending fun stop => source.pending.take (stop - source.position)

/-- The source after so many more bytes were handed out. -/
def advance (source : Source) (count : Nat) : Source := {
  source with
  pending := source.pending.drop count
  position := source.position + count }

section Advance

variable (source : Source)

theorem reachable_isPrefix : source.reachable <+: source.pending := by
  unfold reachable
  cases source.failAt? with
  | none => exact List.prefix_refl _
  | some stop => exact List.take_prefix ..

@[simp] theorem reachable_advance (count : Nat) :
    (source.advance count).reachable = source.reachable.drop count := by
  unfold reachable advance
  cases source.failAt? with
  | none => rfl
  | some stop => simp only [Option.elim_some, List.drop_take, Nat.sub_add_eq]

@[simp] theorem advance_zero : source.advance 0 = source := rfl

@[simp] theorem advance_advance (first second : Nat) :
    (source.advance first).advance second = source.advance (first + second) := by
  simp only [advance, List.drop_drop, Nat.add_assoc]

end Advance

theorem reachable_advance_of_append {source : Source} {front rest : Bytes}
    (whole : front ++ rest = source.reachable) :
    (source.advance front.length).reachable = rest := by
  rw [reachable_advance, ← whole, List.drop_left]

/-! ## Pieces -/

/-- What can come of asking for a piece: only where nothing can be had is there a
    failure or an empty piece. -/
inductive Pulled (source : Source) (wanted : Nat) : EStateM.Result Error Source Bytes → Prop where
  | failed {fault : IoFault} {after : Source} (nothing : source.reachable = []) :
      Pulled source wanted (.error ⟨[], .io fault⟩ after)
  | ended {after : Source} (nothing : source.reachable = []) :
      Pulled source wanted (.ok [] after)
  | piece {first : UInt8} {others rest : Bytes} (few : others.length < wanted)
      (whole : first :: others ++ rest = source.reachable) :
      Pulled source wanted (.ok (first :: others) (source.advance (others.length + 1)))

theorem pieceLimit_le (source : Source) (wanted : Nat) : source.pieceLimit wanted ≤ wanted := by
  unfold pieceLimit
  cases source.limit? source.position with
  | none => exact Nat.min_le_left ..
  | some most => exact Nat.le_trans (Nat.min_le_left ..) (Nat.min_le_left ..)

theorem take_pieceLimit (source : Source) (wanted : Nat) :
    source.pending.take (source.pieceLimit wanted) =
      source.reachable.take (source.pieceLimit wanted) := by
  unfold reachable pieceLimit
  cases source.failAt? with
  | none => rfl
  | some stop =>
      rw [Option.elim_some, Option.elim_some, List.take_take, Nat.min_eq_left (Nat.min_le_right ..)]

theorem pieceLimit_pos {source : Source} {wanted : Nat} (wants : 0 < wanted)
    (more : source.reachable ≠ []) : 0 < source.pieceLimit wanted := by
  unfold pieceLimit
  apply Nat.lt_min.2
  constructor
  · cases limited : source.limit? source.position with
    | none => exact wants
    | some most =>
        have most_pos : most ≠ 0 := fun none => source.limit_ne_zero _ (none ▸ limited)
        exact Nat.lt_min.2 ⟨wants, Nat.pos_of_ne_zero most_pos⟩
  · unfold reachable at more
    cases stops : source.failAt? with
    | none => exact wants
    | some stop =>
        apply Nat.pos_of_ne_zero
        intro here
        change stop - source.position = 0 at here
        rw [stops, Option.elim_some, here] at more
        exact more rfl

/-- The number of bytes in a piece is what a source goes forward by. -/
theorem advance_length_take (source : Source) (limit : Nat) :
    { source with
      pending := source.pending.drop limit
      position := source.position + (source.pending.take limit).length } =
    source.advance (source.pending.take limit).length := by
  unfold advance
  rw [List.length_take]
  rcases Nat.le_total limit source.pending.length with within | beyond
  · rw [Nat.min_eq_left within]
  · rw [Nat.min_eq_right beyond, List.drop_of_length_le beyond, List.drop_length]

theorem pulled (source : Source) {wanted : Nat} (wants : 0 < wanted) :
    Pulled source wanted (pull wanted source) := by
  unfold pull
  split
  case isTrue fails =>
    refine .failed ?_
    rw [reachable, fails, Option.elim_some, Nat.sub_self, List.take_zero]
  case isFalse =>
    have whole := List.take_append_drop (source.pieceLimit wanted) source.reachable
    have few := List.length_take_le (source.pieceLimit wanted) source.reachable
    simp only [advance_length_take]
    rw [take_pieceLimit]
    cases piece : source.reachable.take (source.pieceLimit wanted) with
    | nil =>
        refine .ended (Decidable.byContradiction fun more => ?_)
        have limit_pos := pieceLimit_pos wants more
        exact (List.take_eq_nil_iff.1 piece).elim (Nat.ne_of_gt limit_pos) more
    | cons first others =>
        rw [piece] at whole few
        exact .piece (Nat.le_trans few (source.pieceLimit_le wanted)) whole

/-! ## Bodies -/

/-- As many bytes as are wanted are gathered if they can be had. -/
theorem gather_of_le {source : Source} {wanted : Nat} (pieces : List Bytes)
    (enough : wanted ≤ source.reachable.length) :
    gather wanted pieces source =
      .ok (pieces.reverse.flatten ++ source.reachable.take wanted) (source.advance wanted) := by
  -- Each piece is a front of what can be had, so what is still wanted is there behind it.
  induction wanted, pieces, source using gather.induct with
  | case1 pieces source =>
      rw [gather, if_pos rfl, List.take_zero, List.append_nil, advance_zero]
  | case2 wanted pieces source wants error after failed =>
      have pulled := source.pulled (Nat.pos_of_ne_zero wants)
      rw [failed] at pulled
      cases pulled with
      | failed nothing => simp [nothing, wants] at enough
  | case3 wanted pieces source wants after ended =>
      have pulled := source.pulled (Nat.pos_of_ne_zero wants)
      rw [ended] at pulled
      cases pulled with
      | ended nothing => simp [nothing, wants] at enough
  | case4 wanted pieces source wants first others after given ih =>
      have pulled := source.pulled (Nat.pos_of_ne_zero wants)
      rw [given] at pulled
      cases pulled with
      | @piece _ _ rest few whole =>
          have left : (source.advance (others.length + 1)).reachable = rest :=
            reachable_advance_of_append whole
          have total : others.length + 1 + (wanted - (others.length + 1)) = wanted :=
            Nat.add_sub_cancel' few
          have later := ih (by
            rw [left]
            rw [← whole, List.length_append, List.length_cons] at enough
            omega)
          rw [gather, if_neg wants, given]
          simp only [later, left, advance_advance, total, ← whole]
          have fits : (first :: others).take wanted = first :: others :=
            List.take_of_length_le few
          rw [List.take_append, fits]
          simp

/-- If they cannot be had, the source fails or too few are gathered. -/
theorem gather_of_lt {source : Source} {wanted : Nat} (pieces : List Bytes)
    (short : source.reachable.length < wanted) :
    (∃ fault after, gather wanted pieces source = .error ⟨[], .io fault⟩ after) ∨
      ∃ found after, gather wanted pieces source = .ok found after ∧
        found.length < pieces.flatten.length + wanted := by
  induction wanted, pieces, source using gather.induct with
  | case1 => exact absurd short (Nat.not_lt_zero _)
  | case2 wanted pieces source wants error after failed =>
      have pulled := source.pulled (Nat.pos_of_ne_zero wants)
      rw [failed] at pulled
      cases pulled with
      | failed => exact .inl ⟨_, _, by rw [gather, if_neg wants, failed]⟩
  | case3 wanted pieces source wants after ended =>
      refine .inr ⟨_, after, by rw [gather, if_neg wants, ended], ?_⟩
      have same : pieces.reverse.flatten.length = pieces.flatten.length := by
        simp [List.length_flatten, List.sum_reverse]
      rw [same]
      exact Nat.lt_add_of_pos_right (Nat.pos_of_ne_zero wants)
  | case4 wanted pieces source wants first others after given ih =>
      have pulled := source.pulled (Nat.pos_of_ne_zero wants)
      rw [given] at pulled
      cases pulled with
      | @piece _ _ rest few whole =>
          have left : (source.advance (others.length + 1)).reachable = rest :=
            reachable_advance_of_append whole
          have later := ih (by
            rw [left]
            rw [← whole, List.length_append, List.length_cons] at short
            omega)
          rw [gather, if_neg wants, given]
          obtain failed | ⟨found, last, ended, few'⟩ := later
          · exact .inl failed
          · refine .inr ⟨found, last, ended, ?_⟩
            rw [List.flatten_cons, List.length_append, List.length_cons] at few'
            omega

/-! ## Following a buffer -/

/-- A reading from a source and one from a buffer: the same value or the same
    error after the same bytes, except that where the buffer is too short the
    source has a failure of its own. -/
inductive Agrees (source : Source) :
    EStateM.Result Error Source α → EStateM.Result Error Bytes α → Prop where
  | ok {front rest : Bytes} {value : α} (whole : front ++ rest = source.reachable) :
      Agrees source (.ok value (source.advance front.length)) (.ok value rest)
  | error {front rest : Bytes} {error : Error} (whole : front ++ rest = source.reachable)
      (notShort : ¬error.IsShort) :
      Agrees source (.error error (source.advance front.length)) (.error error rest)
  | short {needed got : Nat} {left : Bytes} {fault : IoFault} {after : Source} :
      Agrees source (.error ⟨[], .io fault⟩ after) (.error ⟨[], .bufferTooSmall needed got⟩ left)

section Agrees

variable {source : Source} {result : EStateM.Result Error Source α} {front rest : Bytes}

theorem Agrees.eq_ok {value : α} (agrees : source.Agrees result (.ok value rest))
    (whole : front ++ rest = source.reachable) :
    result = .ok value (source.advance front.length) := by
  cases agrees with
  | ok whole' =>
      rw [← whole, List.append_cancel_right_eq] at whole'
      rw [whole']

theorem Agrees.eq_error {error : Error} (agrees : source.Agrees result (.error error rest))
    (notShort : ¬error.IsShort) (whole : front ++ rest = source.reachable) :
    result = .error error (source.advance front.length) := by
  cases agrees with
  | error whole' =>
      rw [← whole, List.append_cancel_right_eq] at whole'
      rw [whole']
  | short => exact absurd ⟨_, _, rfl⟩ notShort

theorem Agrees.exists_io {needed got : Nat}
    (agrees : source.Agrees result (.error ⟨[], .bufferTooSmall needed got⟩ rest)) :
    ∃ fault after, result = .error ⟨[], .io fault⟩ after := by
  cases agrees with
  | error _ notShort => exact absurd ⟨_, _, rfl⟩ notShort
  | short => exact ⟨_, _, rfl⟩

end Agrees

/-- What is read from a source is what is read from the bytes that can be had. -/
def Follows (fromSource : EStateM Error Source α) (reader : Reader α) : Prop :=
  ∀ source : Source, source.Agrees (fromSource source) (reader source.reachable)

/-- What agrees behind the front agrees. -/
theorem Agrees.behind {source : Source} {front rest : Bytes}
    (whole : front ++ rest = source.reachable)
    {fromSource : EStateM.Result Error Source α} {fromBytes : EStateM.Result Error Bytes α}
    (agrees : (source.advance front.length).Agrees fromSource fromBytes) :
    source.Agrees fromSource fromBytes := by
  cases agrees with
  | @ok second left _ whole' =>
      rw [reachable_advance_of_append whole] at whole'
      rw [advance_advance, ← List.length_append]
      exact .ok (by rw [List.append_assoc, whole', whole])
  | @error second left _ whole' notShort =>
      rw [reachable_advance_of_append whole] at whole'
      rw [advance_advance, ← List.length_append]
      exact .error (by rw [List.append_assoc, whole', whole]) notShort
  | short => exact .short

theorem follows_pure (value : α) : Follows (pure value) (pure value) :=
  fun _ => .ok (List.nil_append _)

theorem follows_throw {error : Error} (notShort : ¬error.IsShort) :
    Follows (throw error : EStateM Error Source α) (throw error) :=
  fun _ => .error (List.nil_append _) notShort

theorem Follows.bind {fromSource : EStateM Error Source α} {reader : Reader α}
    {nextFromSource : α → EStateM Error Source β} {nextReader : α → Reader β}
    (first : Follows fromSource reader)
    (second : ∀ value, Follows (nextFromSource value) (nextReader value)) :
    Follows (fromSource >>= nextFromSource) (reader >>= nextReader) := by
  intro source
  have agrees := first source
  change source.Agrees (EStateM.bind fromSource nextFromSource source)
    (EStateM.bind reader nextReader source.reachable)
  unfold EStateM.bind
  generalize fromSource source = found at agrees
  generalize reader source.reachable = expected at agrees
  cases agrees with
  | @ok front rest value whole =>
      have later := second value (source.advance front.length)
      rw [reachable_advance_of_append whole] at later
      exact later.behind whole
  | error whole notShort => exact .error whole notShort
  | short => exact .short

theorem follows_byte : Follows byte Reader.byte := by
  intro source
  have pulled := source.pulled Nat.one_pos
  simp only [byte, bind, EStateM.bind]
  generalize pull 1 source = result at pulled
  cases pulled with
  | failed nothing =>
      rw [nothing]
      exact .short
  | ended nothing =>
      rw [nothing]
      exact .short
  | @piece first others rest few whole =>
      cases List.length_eq_zero_iff.1 (Nat.lt_one_iff.1 few)
      have front : [first] ++ rest = source.reachable := whole
      rw [← whole]
      exact .ok front

theorem take_of_append {source : Source} {front rest : Bytes}
    (whole : front ++ rest = source.reachable) :
    take front.length source = .ok front (source.advance front.length) := by
  have enough : front.length ≤ source.reachable.length := by
    rw [← whole, List.length_append]
    exact Nat.le_add_right ..
  have gathered := gather_of_le [] enough
  rw [← whole, List.take_left] at gathered
  simp only [take, bind, EStateM.bind, gathered, List.reverse_nil, List.flatten_nil,
    List.nil_append, if_neg (Nat.lt_irrefl _)]
  rfl

theorem take_of_lt {source : Source} {count : Nat} (short : source.reachable.length < count) :
    ∃ fault after, take count source = .error ⟨[], .io fault⟩ after := by
  obtain ⟨fault, after, failed⟩ | ⟨found, after, ended, few⟩ := gather_of_lt [] short
  · refine ⟨fault, after, ?_⟩
    simp only [take, bind, EStateM.bind, failed]
  · rw [List.flatten_nil, List.length_nil, Nat.zero_add] at few
    refine ⟨.endOfBody, after, ?_⟩
    simp only [take, bind, EStateM.bind, ended, if_pos few]
    rfl

theorem follows_take (count : Nat) : Follows (take count) (Reader.take count) := by
  intro source
  by_cases enough : count ≤ source.reachable.length
  · obtain ⟨front, rest, whole, rfl⟩ :
        ∃ front rest, front ++ rest = source.reachable ∧ front.length = count :=
      ⟨_, _, List.take_append_drop count _, by rw [List.length_take, Nat.min_eq_left enough]⟩
    rw [take_of_append whole, Reader.take_eq_ok.2 ⟨rfl, whole⟩]
    exact .ok whole
  · have short : source.reachable.length < count := Nat.lt_of_not_le enough
    obtain ⟨fault, after, failed⟩ := take_of_lt short
    rw [failed, Reader.take_of_short short]
    exact .short

theorem follows_varInt (more : Nat) : Follows (VarInt.read byte more) (VarInt.read Reader.byte more) := by
  induction more with
  | zero => exact follows_throw (by rintro ⟨_, _, ⟨⟩⟩)
  | succ more ih =>
      refine follows_byte.bind fun group => ?_
      split
      · exact follows_pure _
      · exact ih.bind fun higher => follows_pure _

theorem follows_header : Follows (FixedHeader.read byte) FixedHeader.reader := by
  refine follows_byte.bind fun first => ?_
  split
  · exact follows_throw (by rintro ⟨_, _, ⟨⟩⟩)
  · exact (follows_varInt 4).bind fun length => follows_pure _

theorem follows_frame : Follows frame Frame.reader :=
  follows_header.bind fun _ => (follows_take _).bind fun _ => follows_pure _

theorem follows_received : Follows received Received.reader := by
  refine follows_frame.bind fun frame => ?_
  cases read : Received.ofFrame frame with
  | ok => exact follows_pure _
  | error => exact follows_throw (Received.refusesBody_of_ofFrame read).not_isShort

/-- What follows a reader gives what the reader accepts, and goes forward by it. -/
theorem Follows.eq_ok {fromSource : EStateM Error Source α} {reader : Reader α}
    {spells : α → Bytes → Prop} (follows : Follows fromSource reader)
    (accepts : reader.Accepts spells) {source after : Source} {value : α} :
    fromSource source = .ok value after ↔
      ∃ bytes, spells value bytes ∧ bytes <+: source.reachable ∧
        after = source.advance bytes.length := by
  have agrees := follows source
  constructor
  · intro read
    rw [read] at agrees
    generalize fromBytes : reader source.reachable = result at agrees
    cases agrees with
    | @ok front rest _ whole =>
        obtain ⟨bytes, spelled, whole'⟩ := accepts.1 fromBytes
        rw [← whole, List.append_cancel_right_eq] at whole'
        cases whole'
        exact ⟨_, spelled, ⟨rest, whole⟩, rfl⟩
  · intro found
    obtain ⟨bytes, spelled, ⟨rest, whole⟩, rfl⟩ := found
    rw [← whole, accepts.read spelled] at agrees
    exact agrees.eq_ok whole

/-! ## Answers -/

/-- Ask for a packet: the answer, and the source afterwards. -/
def answer (source : Source) : Except Error Packet × Source :=
  match packet source with
  | .ok found after => (.ok found, after)
  | .error error after => (.error error, after)

/-- Ask for a packet so many times, whatever the answers. -/
def answers : Nat → Source → List (Except Error Packet) × Source
  | 0, source => ([], source)
  | times + 1, source =>
      let (first, after) := source.answer
      let (others, final) := answers times after
      (first :: others, final)

theorem answer_of_settles {source : Source} {front : Bytes} {settled : Except Error Received} (settles : Settles front settled)
    (available : front <+: source.reachable) :
    source.answer = (settled.map Received.packet, source.advance front.length) := by
  obtain ⟨rest, whole⟩ := available
  have agrees := follows_received source
  rw [← whole, settles.read] at agrees
  simp only [answer, packet, bind, EStateM.bind]
  cases settled with
  | ok found =>
      rw [agrees.eq_ok whole]
      rfl
  | error error =>
      rw [agrees.eq_error (settles.not_isShort _ rfl) whole]
      rfl

theorem answer_of_isIncomplete {source : Source} {needed got : Nat}
    (incomplete : IsIncomplete source.reachable needed got) :
    ∃ fault, source.answer.1 = .error ⟨[], .io fault⟩ := by
  obtain ⟨left, read⟩ := incomplete.reader
  have agrees := follows_received source
  rw [read] at agrees
  obtain ⟨fault, after, failed⟩ := agrees.exists_io
  refine ⟨fault, ?_⟩
  simp only [answer, packet, bind, EStateM.bind, failed]

/-- What settles the answer of a buffer settles that of a source. -/
theorem answer_eq_decode {source : Source} {front : Bytes} {settled : Except Error Received} (settles : Settles front settled)
    (available : front <+: source.reachable) :
    source.answer =
      ((Packet.decode source.pending).map Prod.fst, source.advance front.length) := by
  obtain ⟨rest, whole⟩ := available.trans source.reachable_isPrefix
  rw [answer_of_settles settles available, ← whole, Packet.map_fst_decode_of_settles settles]

/-- Frame after frame is answered for, whatever the answers. -/
theorem answers_of_frames {source : Source} {frames : List Bytes}
    (areFrames : ∀ frame ∈ frames, IsFrame frame)
    (available : frames.flatten <+: source.reachable) :
    source.answers frames.length =
      (frames.map fun frame => (Packet.decode frame).map Prod.fst,
        source.advance frames.flatten.length) := by
  induction frames generalizing source with
  | nil => rfl
  | cons front frames ih =>
      obtain ⟨isFrame, areFrames'⟩ := List.forall_mem_cons.1 areFrames
      obtain ⟨frame, settles⟩ := isFrame.settles
      obtain ⟨rest, whole⟩ := available
      rw [List.flatten_cons, List.append_assoc] at whole
      have first := answer_of_settles settles ⟨_, whole⟩
      have others := ih areFrames'
        ⟨rest, (reachable_advance_of_append whole).symm⟩
      have alone := Packet.map_fst_decode_of_settles settles []
      rw [List.append_nil] at alone
      rw [List.length_cons, answers, first]
      simp only [others, List.map_cons, alone, List.flatten_cons, List.length_append,
        advance_advance]

/-- A source answers as a buffer with all its bytes does.

    Where it gives a whole frame, it gives the packet or the error that decoding
    gives, goes forward by the frame and is not asked for more. Where it gives a
    header that is refused, it gives the error that decoding gives and goes
    forward by the bytes up to the one at which it is refused. Otherwise there is
    a failure of the source. So frames put one behind the other are answered for
    one after the other. -/
theorem answer_follows_decode (source : Source) :
    (∀ front, IsFrame front → front <+: source.reachable →
      source.answer =
        ((Packet.decode source.pending).map Prod.fst, source.advance front.length) ∧
      ∀ stop, source.position + front.length ≤ stop →
        answer { source with failAt? := some stop } =
          (source.answer.1, { source.answer.2 with failAt? := some stop })) ∧
    (∀ front, IsRefusedHeader front → front <+: source.reachable →
      ∃ error, Packet.decode source.pending = .error error ∧
        source.answer = (.error error, source.advance front.length)) ∧
    ((∀ front, IsFrame front ∨ IsRefusedHeader front → ¬front <+: source.reachable) →
      ∃ fault, source.answer.1 = .error ⟨[], .io fault⟩) ∧
    ∀ frames : List Bytes, (∀ frame ∈ frames, IsFrame frame) →
      frames.flatten <+: source.reachable →
      source.answers frames.length =
        (frames.map fun frame => (Packet.decode frame).map Prod.fst,
          source.advance frames.flatten.length) := by
  refine ⟨?frame, ?refused, ?cut, fun frames => answers_of_frames⟩
  case frame =>
    intro front isFrame available
    obtain ⟨frame, settles⟩ := isFrame.settles
    have here := answer_eq_decode settles available
    refine ⟨here, fun stop beyond => ?_⟩
    -- A source that fails there hands out the frame as well, and answers the same.
    let other : Source := { source with failAt? := some stop }
    have otherAvailable : front <+: other.reachable :=
      List.prefix_take_iff.2 ⟨available.trans source.reachable_isPrefix, by
        change front.length ≤ stop - source.position
        omega⟩
    have there := answer_eq_decode settles otherAvailable
    rw [here]
    exact there
  case refused =>
    intro front isRefused available
    obtain ⟨error, settles⟩ := isRefused.settles
    obtain ⟨rest, whole⟩ := available.trans source.reachable_isPrefix
    refine ⟨error, ?_, answer_of_settles settles available⟩
    rw [← whole, Packet.decode_of_settles settles]
    rfl
  case cut =>
    intro nothingWhole
    obtain ⟨needed, got, incomplete⟩ | ⟨front, rest, settled, whole⟩ :=
      isIncomplete_or_settled source.reachable
    · exact answer_of_isIncomplete incomplete
    · exact absurd ⟨rest, whole⟩ (nothingWhole front settled)

/-- A body that comes in pieces of two, one and two bytes, flags that no DISCONNECT has, and a
    failure right behind them. -/
theorem answer_follows_decode_disconnect :
    let source : Source := {
      pending := [224, 5, 139, 3, 33, 0, 9, 226, 1, 0, 32]
      limit? := fun position => some (if position = 4 then 1 else 2)
      limit_ne_zero := fun position => by split <;> decide
      failAt? := some 10 }
    source.answers 2 =
      ([.ok (.disconnect ⟨139, .ofList [⟨.receiveMaximum, .uint16 9, rfl, rfl⟩]⟩),
        .error ⟨[], .invalidFlags .disconnect 2 0⟩], source.advance 10) := by
  intro source
  let frames : List Bytes := [[224, 5, 139, 3, 33, 0, 9], [226, 1, 0]]
  have first : IsFrame [224, 5, 139, 3, 33, 0, 9] :=
    @IsFrame.mk 224 ⟨[5], .last (by decide), by decide⟩ [139, 3, 33, 0, 9]
      (by unfold HasType; decide) rfl
  have second : IsFrame [226, 1, 0] :=
    @IsFrame.mk 226 ⟨[1], .last (by decide), by decide⟩ [0] (by unfold HasType; decide) rfl
  have areFrames : ∀ frame ∈ frames, IsFrame frame :=
    List.forall_mem_cons.2 ⟨first, List.forall_mem_singleton.2 second⟩
  obtain ⟨-, -, -, inOrder⟩ := answer_follows_decode source
  refine (inOrder frames areFrames ⟨[], by decide⟩).trans (Prod.ext ?_ rfl)
  decide +kernel

end Source

end MqttWire
