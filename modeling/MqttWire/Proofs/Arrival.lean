import MqttWire.Proofs.Canonical
import MqttWire.Proofs.Framing
import MqttWire.Session

/-! # Bytes that arrive in pieces

An answer that was given stands when more bytes arrive, and a buffer that asks
for more bytes goes on to do so until it has as many as it asked for. So packets
that were put one behind the other come out of a receive buffer in order, however
their bytes are cut up and whenever packets are asked for.
-/

namespace MqttWire

/-! ## More bytes behind a buffer -/

theorem exists_settles {front : Bytes} (settled : IsFrame front ∨ IsRefusedHeader front) :
    ∃ answer, Settles front answer := by
  rcases settled with isFrame | isRefused
  · obtain ⟨frame, settles⟩ := isFrame.settles
    exact ⟨_, settles⟩
  · obtain ⟨error, settles⟩ := isRefused.settles
    exact ⟨_, settles⟩

theorem Settles.not_isShort_decode {front : Bytes} {answer : Except Error Received}
    (settles : Settles front answer) {rest : Bytes} {error : Error}
    (failed : Packet.decode (front ++ rest) = .error error) : ¬error.IsShort := by
  rw [Packet.decode_of_settles settles] at failed
  cases answer with
  | error inner =>
      cases failed
      exact settles.not_isShort _ rfl
  | ok => cases failed

/-- A buffer whose answer is no want of bytes begins with what settles the answer. -/
theorem exists_settles_of_decode {buffer : Bytes}
    (notShort : ∀ error, Packet.decode buffer = .error error → ¬error.IsShort) :
    ∃ front rest answer, front ++ rest = buffer ∧ Settles front answer := by
  obtain ⟨needed, got, incomplete⟩ | ⟨front, rest, settled, whole⟩ :=
    isIncomplete_or_settled buffer
  · exact absurd ⟨needed, got, rfl⟩ (notShort _ (Packet.decode_of_isIncomplete incomplete))
  · obtain ⟨answer, settles⟩ := exists_settles settled
    exact ⟨front, rest, answer, whole, settles⟩

theorem Packet.decode_eq_short_iff {buffer : Bytes} {needed got : Nat} :
    decode buffer = .error ⟨[], .bufferTooSmall needed got⟩ ↔ IsIncomplete buffer needed got := by
  constructor
  · intro failed
    obtain ⟨needed', got', incomplete⟩ | ⟨front, rest, settled, rfl⟩ :=
      isIncomplete_or_settled buffer
    · rw [decode_of_isIncomplete incomplete] at failed
      cases failed
      exact incomplete
    · obtain ⟨answer, settles⟩ := exists_settles settled
      exact absurd ⟨needed, got, rfl⟩ (settles.not_isShort_decode failed)
  · exact decode_of_isIncomplete

theorem IsIncomplete.append {buffer more : Bytes} {needed got : Nat}
    (incomplete : IsIncomplete buffer needed got) (few : more.length < needed - got) :
    ∃ needed' got', IsIncomplete (buffer ++ more) needed' got' := by
  cases incomplete with
  | nothing =>
      cases List.length_eq_zero_iff.1 (Nat.lt_one_iff.1 few)
      exact ⟨1, 0, .nothing⟩
  | inHeader typed short goesOn =>
      cases List.length_eq_zero_iff.1 (Nat.lt_one_iff.1 few)
      rw [List.append_nil]
      exact ⟨1, 0, .inHeader typed short goesOn⟩
  | @inBody first length body typed short =>
      rw [List.cons_append, List.append_assoc]
      refine ⟨length.value, (body ++ more).length, .inBody typed ?_⟩
      rw [List.length_append]
      omega

/-- Once the header is there, the bytes that are asked for make up the frame. -/
theorem IsIncomplete.exists_isFrame {buffer more : Bytes} {needed got : Nat}
    (incomplete : IsIncomplete buffer needed got) (hasHeader : HasHeader buffer)
    (enough : needed - got ≤ more.length) :
    ∃ front rest, IsFrame front ∧ front ++ rest = buffer ++ more := by
  obtain ⟨header, left, read⟩ := hasHeader
  cases incomplete with
  | nothing => cases read
  | inHeader typed short goesOn =>
      rw [FixedHeader.reader_of_stopped typed (VarInt.reader_of_fewer goesOn short)] at read
      cases read
  | @inBody first length body typed short =>
      have measured : length.value = ((body ++ more).take length.value).length := by
        rw [List.length_take, List.length_append]
        omega
      exact ⟨_, (body ++ more).drop length.value, .mk typed measured, by simp⟩

namespace Packet

/-- More bytes leave a packet that was decoded as it is, and an error too, unless
    the buffer ended inside a frame. There a context-free want of bytes is
    reported, and it is reported until at least the missing bytes are there; with
    the header complete, not any longer than that. -/
theorem decode_as_bytes_arrive (buffer more : Bytes) :
    (∀ packet rest, decode buffer = .ok (packet, rest) →
      decode (buffer ++ more) = .ok (packet, rest ++ more)) ∧
    (∀ error, decode buffer = .error error → ¬error.IsShort →
      decode (buffer ++ more) = .error error) ∧
    ∀ needed got,
      (decode buffer = .error ⟨[], .bufferTooSmall needed got⟩ ↔ IsIncomplete buffer needed got) ∧
      (decode buffer = .error ⟨[], .bufferTooSmall needed got⟩ →
        got < needed ∧
        (more.length < needed - got →
          ∃ error, decode (buffer ++ more) = .error error ∧ error.IsShort) ∧
        (HasHeader buffer → needed - got ≤ more.length →
          ∀ error, decode (buffer ++ more) = .error error → ¬error.IsShort)) := by
  refine ⟨?decoded, ?refused, fun needed got => ⟨decode_eq_short_iff, fun failed => ?short⟩⟩
  case decoded =>
    intro packet rest decoded
    obtain ⟨form, samePacket, rfl⟩ := decode_eq_ok.1 decoded
    exact decode_eq_ok.2 ⟨form, samePacket, (List.append_assoc ..).symm⟩
  case refused =>
    intro error failed notShort
    have notShort' : ∀ error, decode buffer = .error error → ¬error.IsShort := by
      intro _ failed'
      cases failed.symm.trans failed'
      exact notShort
    obtain ⟨front, rest, answer, rfl, settles⟩ := exists_settles_of_decode notShort'
    rw [decode_of_settles settles] at failed
    rw [List.append_assoc, decode_of_settles settles]
    cases answer with
    | error => exact failed
    | ok => cases failed
  case short =>
    have incomplete := decode_eq_short_iff.1 failed
    refine ⟨incomplete.got_lt, ?_, ?_⟩
    · intro few
      obtain ⟨needed', got', stillIncomplete⟩ := incomplete.append few
      exact ⟨_, decode_of_isIncomplete stillIncomplete, needed', got', rfl⟩
    · intro hasHeader enough error failed
      obtain ⟨front, rest, isFrame, whole⟩ := incomplete.exists_isFrame hasHeader enough
      obtain ⟨frame, settles⟩ := isFrame.settles
      rw [← whole] at failed
      exact settles.not_isShort_decode failed

end Packet

/-! ## Receive buffers -/

/-- What ends inside the encoding of a packet ends inside a frame. -/
theorem exists_isIncomplete_of_encode {packet : Packet} {bytes buffer : Bytes}
    (encoded : packet.encode = .ok bytes) (begun : buffer <+: bytes)
    (notWhole : ¬bytes <+: buffer) : ∃ needed got, IsIncomplete buffer needed got := by
  obtain ⟨tail, whole⟩ := begun
  obtain incomplete | ⟨front, rest, settled, rfl⟩ := isIncomplete_or_settled buffer
  · exact incomplete
  · obtain ⟨answer, settles⟩ := exists_settles settled
    obtain ⟨form, -, rfl, -⟩ := Packet.encode_eq_ok.1 encoded
    have decoded : Packet.decode (form.bytes ++ []) = .ok (form.packet, []) :=
      Packet.decode_eq_ok.2 ⟨form, rfl, rfl⟩
    rw [List.append_nil, ← whole, List.append_assoc, Packet.decode_of_settles settles] at decoded
    cases answer with
    | error => cases decoded
    | ok received =>
        have nothingLeft : rest ++ tail = [] := congrArg Prod.snd (Except.ok.inj decoded)
        obtain ⟨rfl, rfl⟩ := List.append_eq_nil_iff.1 nothingLeft
        rw [List.append_nil] at whole
        exact absurd ⟨[], by rw [List.append_nil, whole]⟩ notWhole

namespace Session

/-- What happens to a receive buffer. -/
inductive Step where
  /-- Bytes arrive. -/
  | feed (bytes : Bytes)
  /-- A packet is asked for. -/
  | decode

/-- The bytes that arrive in the course of steps. -/
def arrived : List Step → Bytes
  | [] => []
  | .feed bytes :: steps => bytes ++ arrived steps
  | .decode :: steps => arrived steps

/-- Go through steps. Each time a packet is asked for there is an answer. -/
def run (session : Session) : List Step → List (Except Error Packet) × Session
  | [] => ([], session)
  | .feed bytes :: steps => (session.feed bytes).run steps
  | .decode :: steps =>
      let (answers, final) := session.decode.2.run steps
      (session.decode.1 :: answers, final)

/-- The packets among answers. -/
def taken (answers : List (Except Error Packet)) : List Packet :=
  answers.filterMap Except.toOption

section Steps

variable (session : Session) (bytes : Bytes) (steps : List Step)

@[simp] theorem buffer_feed : (session.feed bytes).buffer = session.buffer ++ bytes := rfl

@[simp] theorem arrived_feed : arrived (.feed bytes :: steps) = bytes ++ arrived steps := rfl

@[simp] theorem arrived_decode : arrived (.decode :: steps) = arrived steps := rfl

@[simp] theorem run_feed : session.run (.feed bytes :: steps) = (session.feed bytes).run steps := rfl

@[simp] theorem run_decode :
    session.run (.decode :: steps) = (session.decode.1 :: (session.decode.2.run steps).1,
      (session.decode.2.run steps).2) := rfl

@[simp] theorem taken_ok (packet : Packet) (answers : List (Except Error Packet)) :
    taken (.ok packet :: answers) = packet :: taken answers := rfl

@[simp] theorem taken_error (error : Error) (answers : List (Except Error Packet)) :
    taken (.error error :: answers) = taken answers := rfl

end Steps

variable {session : Session} {packets : List Packet} {encodings : List Bytes}

theorem decode_of_ok {packet : Packet} {rest : Bytes}
    (decoded : Packet.decode session.buffer = .ok (packet, rest)) :
    session.decode.1 = .ok packet ∧ session.decode.2.buffer = rest := by
  unfold Packet.decode at decoded
  unfold decode Packet.decodeCounted
  cases found : Received.ofBuffer session.buffer with
  | error =>
      rw [found] at decoded
      cases decoded
  | ok =>
      rw [found] at decoded
      cases decoded
      exact ⟨rfl, rfl⟩

theorem decode_of_error {error : Error} (failed : Packet.decode session.buffer = .error error) :
    session.decode.1 = .error error ∧ session.decode.2.buffer = session.buffer := by
  unfold Packet.decode at failed
  unfold decode Packet.decodeCounted
  cases found : Received.ofBuffer session.buffer with
  | error =>
      rw [found] at failed
      cases failed
      exact ⟨rfl, rfl⟩
  | ok =>
      rw [found] at failed
      cases failed

/-- What comes of asking for the first of some packets. -/
inductive Decoded (session : Session) : List Packet → List Bytes → Prop where
  /-- Its encoding was there and was taken. -/
  | taken {packet : Packet} {packets : List Packet} {bytes : Bytes} {encodings : List Bytes}
      (answer : session.decode.1 = .ok packet)
      (removed : bytes ++ session.decode.2.buffer = session.buffer) :
      Decoded session (packet :: packets) (bytes :: encodings)
  /-- It was not all there, if there was one, and nothing was taken. -/
  | tooEarly {packets : List Packet} {encodings : List Bytes} {error : Error}
      (answer : session.decode.1 = .error error) (isShort : error.IsShort)
      (kept : session.decode.2.buffer = session.buffer)
      (notWhole : ∀ next, encodings.head? = some next → ¬next <+: session.buffer) :
      Decoded session packets encodings

theorem Decoded.of_isIncomplete {needed got : Nat}
    (incomplete : IsIncomplete session.buffer needed got)
    (notWhole : ∀ next, encodings.head? = some next → ¬next <+: session.buffer) :
    session.Decoded packets encodings := by
  obtain ⟨answer, kept⟩ := decode_of_error (Packet.decode_of_isIncomplete incomplete)
  exact .tooEarly answer ⟨needed, got, rfl⟩ kept notWhole

/-- Of packets put one behind the other, what has arrived gives the first once its
    encoding is there, and nothing before. -/
theorem decoded_of_arrived
    (encoded : List.Forall₂ (fun packet bytes => packet.encode = .ok bytes) packets encodings)
    (fromWire : session.buffer <+: encodings.flatten) : session.Decoded packets encodings := by
  cases encoded with
  | nil =>
      have atEnd : IsIncomplete session.buffer 1 0 := List.prefix_nil.1 fromWire ▸ .nothing
      exact .of_isIncomplete atEnd nofun
  | @cons packet bytes packets encodings first others =>
      by_cases whole : bytes <+: session.buffer
      · obtain ⟨rest, front⟩ := whole
        obtain ⟨form, rfl, rfl, -⟩ := Packet.encode_eq_ok.1 first
        obtain ⟨answer, left⟩ := decode_of_ok (Packet.decode_eq_ok.2 ⟨form, rfl, front⟩)
        exact .taken answer (left ▸ front)
      · have isFirst : bytes <+: (bytes :: encodings).flatten := List.prefix_append ..
        have begun : session.buffer <+: bytes :=
          (List.prefix_or_prefix_of_prefix fromWire isFirst).resolve_right whole
        obtain ⟨needed, got, incomplete⟩ := exists_isIncomplete_of_encode first begun whole
        refine .of_isIncomplete incomplete ?_
        rintro _ ⟨⟩
        exact whole

/-- What has arrived of packets put one behind the other comes out in their order. -/
theorem run_of_arrived
    (encoded : List.Forall₂ (fun packet bytes => packet.encode = .ok bytes) packets encodings)
    {steps : List Step} (fromWire : session.buffer ++ arrived steps <+: encodings.flatten) :
    ∃ count ≤ packets.length, taken (session.run steps).1 = packets.take count ∧
      (encodings.take count).flatten ++ (session.run steps).2.buffer =
        session.buffer ++ arrived steps ∧
      ∀ error, .error error ∈ (session.run steps).1 → error.IsShort := by
  -- A packet that is taken leaves the list together with its encoding, so that the
  -- bytes still to come are again those of packets put one behind the other.
  induction steps generalizing packets encodings session with
  | nil => exact ⟨0, Nat.zero_le _, by simp [run, taken], by simp [run, arrived], by simp [run]⟩
  | cons step steps ih =>
      cases step with
      | feed bytes =>
          rw [arrived_feed, ← List.append_assoc] at fromWire ⊢
          exact ih encoded fromWire
      | decode =>
          rw [arrived_decode] at fromWire ⊢
          rw [run_decode]
          cases decoded_of_arrived encoded ((List.prefix_append ..).trans fromWire) with
          | taken answer removed =>
              cases encoded with
              | cons _ others =>
                  rw [← removed, List.append_assoc] at fromWire ⊢
                  obtain ⟨count, le, inOrder, kept, short⟩ :=
                    ih others ((List.prefix_append_right_inj _).1 fromWire)
                  refine ⟨count + 1, Nat.succ_le_succ le, ?_, ?_, fun error member => ?_⟩
                  · rw [answer, taken_ok, inOrder, List.take_succ_cons]
                  · rw [List.take_succ_cons, List.flatten_cons, List.append_assoc, kept]
                  · rw [answer] at member
                    exact short error ((List.mem_cons.1 member).resolve_left nofun)
          | @tooEarly _ _ error answer isShort unchanged =>
              rw [← unchanged] at fromWire ⊢
              obtain ⟨count, le, inOrder, kept, short⟩ := ih encoded fromWire
              refine ⟨count, le, ?_, kept, fun error' member => ?_⟩
              · rw [answer, taken_error, inOrder]
              · rw [answer] at member
                rcases List.mem_cons.1 member with same | member
                · cases same
                  exact isShort
                · exact short error' member

/-- Asking for a packet fails just when the next encoding is not all there. -/
theorem decode_fails_iff
    (encoded : List.Forall₂ (fun packet bytes => packet.encode = .ok bytes) packets encodings)
    (fromWire : session.buffer <+: encodings.flatten) :
    (∃ error, session.decode.1 = .error error) ↔
      ∀ next, encodings.head? = some next → ¬next <+: session.buffer := by
  cases decoded_of_arrived encoded fromWire with
  | taken answer removed =>
      constructor
      · rintro ⟨error, failed⟩
        cases failed.symm.trans answer
      · intro notWhole
        exact absurd ⟨_, removed⟩ (notWhole _ rfl)
  | tooEarly answer _ _ notWhole => exact ⟨fun _ => notWhole, fun _ => ⟨_, answer⟩⟩

/-- Nothing is lost and nothing doubled. After any steps, in which bytes of the
    packets put one behind the other arrive and packets are asked for, the packets
    taken are the first ones, the buffer holds what arrived behind their
    encodings, and no answer was an error other than a want of bytes. The next
    answer is an error just when the next encoding is not all there. -/
theorem run_reassembles {packets : List Packet} {encodings : List Bytes}
    (encoded : List.Forall₂ (fun packet bytes => packet.encode = .ok bytes) packets encodings)
    {steps : List Step} (fromWire : arrived steps <+: encodings.flatten) (counters : Counters) :
    let answers := (run { counters } steps).1
    let after := (run { counters } steps).2
    let count := (taken answers).length
    taken answers = packets.take count ∧
      (encodings.take count).flatten ++ after.buffer = arrived steps ∧
      (∀ error, .error error ∈ answers → error.IsShort) ∧
      ((∃ error, after.decode.1 = .error error) ↔
        ∀ next, encodings[count]? = some next → ¬next <+: after.buffer) := by
  intro answers after count
  obtain ⟨count', le, inOrder, kept, short⟩ :=
    @run_of_arrived { counters } packets encodings encoded steps fromWire
  have same : count' = count := by
    change count' = (taken answers).length
    rw [inOrder, List.length_take, Nat.min_eq_left le]
  rw [same] at inOrder kept
  have ahead : after.buffer <+: (encodings.drop count).flatten := by
    have whole : (encodings.take count).flatten ++ (encodings.drop count).flatten =
        encodings.flatten := by rw [← List.flatten_append, List.take_append_drop]
    have behind : (encodings.take count).flatten ++ after.buffer = arrived steps := kept
    apply (List.prefix_append_right_inj (encodings.take count).flatten).1
    rw [whole, behind]
    exact fromWire
  refine ⟨inOrder, kept, short, ?_⟩
  rw [← List.head?_drop]
  exact decode_fails_iff (List.forall₂_drop count encoded) ahead

/-- Cuts inside a header and inside a body, and packets asked for too early. -/
theorem run_reassembles_suback :
    let packets : List Packet := [.disconnect ⟨0, .empty⟩, .suback ⟨1, .empty, [2, 128]⟩]
    let encodings : List Bytes := [[224, 0], [144, 5, 0, 1, 0, 2, 128]]
    let steps : List Step :=
      [.feed [224], .decode, .feed [0, 144, 5, 0], .decode, .decode, .feed [], .feed [1, 0]]
    let answers := (run {} steps).1
    let after := (run {} steps).2
    let count := (taken answers).length
    List.Forall₂ (fun packet bytes => packet.encode = .ok bytes) packets encodings ∧
      arrived steps <+: encodings.flatten ∧
      taken answers = packets.take count ∧
      (encodings.take count).flatten ++ after.buffer = arrived steps ∧
      (∀ error, .error error ∈ answers → error.IsShort) ∧
      ((∃ error, after.decode.1 = .error error) ↔
        ∀ next, encodings[count]? = some next → ¬next <+: after.buffer) := by
  intro packets encodings steps answers after count
  have encoded : List.Forall₂ (fun packet bytes => packet.encode = .ok bytes) packets encodings :=
    .cons (by decide +kernel) (.cons (by decide +kernel) .nil)
  have fromWire : arrived steps <+: encodings.flatten := ⟨[2, 128], by decide⟩
  exact ⟨encoded, fromWire, run_reassembles encoded fromWire {}⟩

end Session

end MqttWire
