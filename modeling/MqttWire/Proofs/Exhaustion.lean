import MqttWire.Proofs.Stream

/-! # Sources that have run out

Where a source fails for want of bytes, it has handed out all that could be had.
So it fails again however often it is asked, and a torn packet at its end is
never taken for another packet.
-/

namespace MqttWire

/-- Failure of a source or of a sink, with no layer around it. -/
def Error.IsIo (error : Error) : Prop := ∃ fault, error = ⟨[], .io fault⟩

theorem RefusesBody.not_isIo {header : FixedHeader} {error : Error}
    (refuses : RefusesBody header error) : ¬error.IsIo := by
  rintro ⟨fault, isIo⟩
  cases refuses <;> cases isIo

namespace Source

/-- How a reading leaves its source: if the source itself failed, nothing more can be had. -/
inductive Leaves : EStateM.Result Error Source α → Prop where
  | ok {value : α} {after : Source} : Leaves (.ok value after)
  | refused {error : Error} {after : Source} (notIo : ¬error.IsIo) : Leaves (.error error after)
  | exhausted {error : Error} {after : Source} (nothing : after.reachable = []) :
      Leaves (.error error after)

/-- An error leaves the source as it does, whatever was to be read. -/
theorem Leaves.of_error {error : Error} {after : Source}
    (leaves : Leaves (.error error after : EStateM.Result Error Source α)) :
    Leaves (.error error after : EStateM.Result Error Source β) := by
  cases leaves with
  | refused notIo => exact .refused notIo
  | exhausted nothing => exact .exhausted nothing

/-- Readings whose failures for want of bytes leave nothing. -/
def Exhausts (read : EStateM Error Source α) : Prop :=
  ∀ source : Source, Leaves (read source)

theorem exhausts_pure (value : α) : Exhausts (pure value) :=
  fun _ => .ok

theorem exhausts_throw {error : Error} (notIo : ¬error.IsIo) :
    Exhausts (throw error : EStateM Error Source α) :=
  fun _ => .refused notIo

theorem Exhausts.bind {read : EStateM Error Source α} {next : α → EStateM Error Source β}
    (first : Exhausts read) (second : ∀ value, Exhausts (next value)) :
    Exhausts (read >>= next) := by
  intro source
  have leaves := first source
  change Leaves (EStateM.bind read next source)
  unfold EStateM.bind
  cases found : read source with
  | error error after =>
      rw [found] at leaves
      exact leaves.of_error
  | ok value after => exact second value after

/-- A source goes forward by the piece that it gives. Where it fails or the piece is
    empty, nothing can be had. -/
theorem leaves_pull (source : Source) {wanted : Nat} (wants : 0 < wanted) :
    Leaves (pull wanted source) ∧
      ∀ after, pull wanted source = .ok [] after → after.reachable = [] := by
  have pulled := source.pulled wants
  revert pulled
  unfold pull
  split
  case isTrue fails =>
    intro pulled
    cases pulled with
    | failed nothing =>
        refine ⟨.exhausted nothing, ?_⟩
        rintro after ⟨⟩
  case isFalse =>
    simp only [advance_length_take]
    intro pulled
    refine ⟨.ok, fun after given => ?_⟩
    obtain ⟨noPiece, rfl⟩ := EStateM.Result.ok.inj given
    rw [noPiece] at pulled ⊢
    cases pulled with
    | ended nothing => exact nothing

theorem exhausts_byte : Exhausts byte := by
  intro source
  obtain ⟨leaves, ended⟩ := source.leaves_pull Nat.one_pos
  simp only [byte, bind, EStateM.bind]
  cases pulled : pull 1 source with
  | error error after =>
      rw [pulled] at leaves
      exact leaves.of_error
  | ok piece after =>
      cases piece with
      | nil => exact .exhausted (ended after pulled)
      | cons value others => exact .ok

/-- What was gathered has all the bytes that were wanted, or nothing more can be had. -/
theorem leaves_gather (source : Source) (wanted : Nat) (pieces : List Bytes) :
    Leaves (gather wanted pieces source) ∧
      ∀ found after, gather wanted pieces source = .ok found after →
        after.reachable = [] ∨ pieces.flatten.length + wanted ≤ found.length := by
  induction wanted, pieces, source using gather.induct with
  | case1 pieces source =>
      rw [gather, if_pos rfl]
      refine ⟨.ok, ?_⟩
      rintro found after ⟨⟩
      exact .inr (by simp [List.length_flatten, List.sum_reverse])
  | case2 wanted pieces source wants error after failed =>
      obtain ⟨leaves, -⟩ := source.leaves_pull (Nat.pos_of_ne_zero wants)
      rw [gather, if_neg wants, failed]
      rw [failed] at leaves
      refine ⟨leaves, ?_⟩
      rintro found last ⟨⟩
  | case3 wanted pieces source wants after given =>
      obtain ⟨-, ended⟩ := source.leaves_pull (Nat.pos_of_ne_zero wants)
      rw [gather, if_neg wants, given]
      refine ⟨.ok, ?_⟩
      rintro found last ⟨⟩
      exact .inl (ended after given)
  | case4 wanted pieces source wants first others after given ih =>
      obtain ⟨leaves, enough⟩ := ih
      rw [gather, if_neg wants, given]
      refine ⟨leaves, fun found last gathered => (enough found last gathered).imp_right ?_⟩
      intro many
      rw [List.flatten_cons, List.length_append, List.length_cons] at many
      omega

theorem exhausts_take (count : Nat) : Exhausts (take count) := by
  intro source
  obtain ⟨leaves, enough⟩ := source.leaves_gather count []
  simp only [take, bind, EStateM.bind]
  cases gathered : gather count [] source with
  | error error after =>
      rw [gathered] at leaves
      exact leaves.of_error
  | ok found after =>
      by_cases few : found.length < count
      · simp only [if_pos few]
        have nothing := (enough found after gathered).resolve_right
          (by rw [List.flatten_nil, List.length_nil, Nat.zero_add]; exact Nat.not_le.2 few)
        exact .exhausted nothing
      · simp only [if_neg few]
        exact .ok

theorem exhausts_varInt (more : Nat) : Exhausts (VarInt.read byte more) := by
  induction more with
  | zero => exact exhausts_throw (by rintro ⟨_, ⟨⟩⟩)
  | succ more ih =>
      refine exhausts_byte.bind fun group => ?_
      split
      · exact exhausts_pure _
      · exact ih.bind fun higher => exhausts_pure _

theorem exhausts_header : Exhausts (FixedHeader.read byte) := by
  refine exhausts_byte.bind fun first => ?_
  split
  · exact exhausts_throw (by rintro ⟨_, ⟨⟩⟩)
  · exact (exhausts_varInt 4).bind fun length => exhausts_pure _

theorem exhausts_received : Exhausts received := by
  have frame : Exhausts frame :=
    exhausts_header.bind fun _ => (exhausts_take _).bind fun _ => exhausts_pure _
  refine frame.bind fun frame => ?_
  cases read : Received.ofFrame frame with
  | ok => exact exhausts_pure _
  | error => exact exhausts_throw (Received.refusesBody_of_ofFrame read).not_isIo

theorem exhausts_packet : Exhausts packet :=
  exhausts_received.bind fun _ => exhausts_pure _

/-! ## Asking again -/

/-- At the end of a frame that is not whole the source fails, and has nothing left. -/
theorem exhausted_of_isIncomplete {source : Source} {needed got : Nat}
    (incomplete : IsIncomplete source.reachable needed got) :
    (∃ error, source.answer.1 = .error error ∧ error.IsIo) ∧ source.answer.2.reachable = [] := by
  obtain ⟨fault, failed⟩ := answer_of_isIncomplete incomplete
  refine ⟨⟨_, failed, fault, rfl⟩, ?_⟩
  have leaves := exhausts_packet source
  unfold answer at failed ⊢
  generalize packet source = result at failed leaves
  cases leaves with
  | ok => cases failed
  | refused notIo =>
      cases failed
      exact absurd ⟨fault, rfl⟩ notIo
  | exhausted nothing => exact nothing

/-- Once a frame is not whole, every further answer is a failure of the source. -/
theorem answers_of_isIncomplete {source : Source} {needed got : Nat}
    (incomplete : IsIncomplete source.reachable needed got) (times : Nat) :
    (source.answers times).1.length = times ∧
      ∀ answer ∈ (source.answers times).1, ∃ error, answer = .error error ∧ error.IsIo := by
  induction times generalizing source needed got with
  | zero => exact ⟨rfl, List.forall_mem_nil _⟩
  | succ times ih =>
      obtain ⟨failed, nothing⟩ := exhausted_of_isIncomplete incomplete
      have again : IsIncomplete source.answer.2.reachable 1 0 := nothing ▸ .nothing
      obtain ⟨length, others⟩ := ih again
      exact ⟨congrArg Nat.succ length, List.forall_mem_cons.2 ⟨failed, others⟩⟩

theorem answers_add (source : Source) (first second : Nat) :
    (source.answers (first + second)).1 =
      (source.answers first).1 ++ ((source.answers first).2.answers second).1 := by
  induction first generalizing source with
  | zero =>
      rw [Nat.zero_add]
      rfl
  | succ first ih =>
      rw [Nat.succ_add]
      exact congrArg (source.answer.1 :: ·) (ih source.answer.2)

end Source

end MqttWire
