import MqttWire.Packet
import MqttWire.Proofs.PropertyTable

/-! # Faults of a body

The bytes of a body are refused for one of fourteen causes, and at most the
field at work is named before the packet is. What a reader reports is put
together from what its steps report, so that each reader is followed in the
order in which it is written.
-/

namespace MqttWire

/-- Causes that the bytes of a body can give. -/
def Fault.liesInBody : Fault → Bool
  | .bufferTooSmall .. | .trailingBytes _ | .malformedVarInt | .invalidUtf8 _
  | .unknownProperty _ | .invalidQoS _ | .reservedBitsSet .. | .invalidProtocolName _
  | .unsupportedProtocolLevel _ | .clientIdTooLong _ | .zeroPacketId | .willFlagWithoutWill _
  | .invalidRetainHandling _ | .invalidTopic _ => true
  | _ => false

/-- Cause in a body, with no layer around it. -/
structure Error.IsBare (error : Error) : Prop where
  context : error.context = []
  root : error.root.liesInBody

/-- Cause in a body, with at most the field at work around it. -/
structure Error.IsOfBody (error : Error) : Prop where
  context : error.context = [] ∨ ∃ field, error.context = [.field field]
  root : error.root.liesInBody

theorem Error.IsBare.isOfBody {error : Error} (isBare : error.IsBare) : error.IsOfBody :=
  ⟨.inl isBare.context, isBare.root⟩

theorem Error.IsBare.inField {error : Error} (isBare : error.IsBare) (field : Field) :
    (error.within (.field field)).IsOfBody :=
  ⟨.inr ⟨field, by simp [isBare.context]⟩, isBare.root⟩

namespace Reader

/-- Every failure of the reader has the given form. -/
def Reports (reader : Reader α) (form : Error → Prop) : Prop :=
  ∀ ⦃input error rest⦄, reader input = .error error rest → form error

section Steps

variable {reader : Reader α} {next : α → Reader β} {form : Error → Prop}

theorem bind_eq_error {input rest : Bytes} {error : Error} :
    (reader >>= next) input = .error error rest ↔
      reader input = .error error rest ∨
        ∃ found left, reader input = .ok found left ∧ next found left = .error error rest := by
  simp only [bind, EStateM.bind]
  cases reader input <;> simp

theorem Reports.mono {form' : Error → Prop} (reports : reader.Reports form)
    (weaker : ∀ error, form error → form' error) : reader.Reports form' :=
  fun _ error _ failed => weaker error (reports failed)

theorem reports_pure (value : α) : Reports (pure value) form :=
  nofun

theorem reports_lift {result : Except Error α}
    (refused : ∀ error, result = .error error → form error) :
    (lift result).Reports form := by
  intro input error rest failed
  cases result with
  | ok => cases failed
  | error inner =>
      cases failed
      exact refused _ rfl

theorem reports_fail {fault : Fault} (lies : fault.liesInBody) :
    (fail fault : Reader α).Reports Error.IsBare := by
  intro input error rest failed
  cases failed
  exact ⟨rfl, lies⟩

/-- Steps in sequence, the second of which may rely on what the first has read. -/
theorem Reports.bind_read (first : reader.Reports form)
    (second : ∀ ⦃input found left⦄, reader input = .ok found left → (next found).Reports form) :
    (reader >>= next).Reports form := by
  intro input error rest failed
  obtain failed | ⟨found, left, read, failed⟩ := bind_eq_error.1 failed
  · exact first failed
  · exact second read failed

theorem Reports.bind (first : reader.Reports form) (second : ∀ found, (next found).Reports form) :
    (reader >>= next).Reports form :=
  first.bind_read fun _ found _ _ => second found

theorem Reports.map (reports : reader.Reports form) (f : α → β) : (f <$> reader).Reports form := by
  rw [map_eq_pure_bind]
  exact reports.bind fun _ => reports_pure _

theorem Reports.inField (reports : reader.Reports Error.IsBare) (field : Field) :
    (reader.inField field).Reports Error.IsOfBody := by
  intro input error rest failed
  simp only [Reader.inField, within] at failed
  split at failed
  · cases failed
  · rename_i failed'
    cases failed
    exact (reports failed').inField field

theorem Reports.isOfBody (reports : reader.Reports Error.IsBare) : reader.Reports Error.IsOfBody :=
  reports.mono fun _ => Error.IsBare.isOfBody

theorem Reports.untilEnd {advances : reader.Advances} (reports : reader.Reports form) :
    (untilEnd reader advances).Reports form := by
  have fromHere (found : List α) (input : Bytes) (error : Error) (rest : Bytes)
      (failed : untilEndFrom reader advances found input = .error error rest) : form error := by
    fun_induction untilEndFrom reader advances found input with
    | case1 => cases failed
    | case2 found input notEmpty value left step ih => exact ih failed
    | case3 found input notEmpty error left step =>
        cases failed
        exact reports step
  exact fun input error rest failed => fromHere [] input error rest failed

/-- A reader that must use up the input can also find too much of it. -/
theorem Reports.all (reports : reader.Reports form)
    (trailing : ∀ remaining, form (Fault.trailingBytes remaining)) {input : Bytes} {error : Error}
    (failed : reader.all input = .error error) : form error := by
  unfold Reader.all at failed
  split at failed
  · cases failed
  · cases failed
    exact trailing _
  · rename_i failed'
    cases failed
    exact reports failed'

end Steps

/-! ## Primitive fields -/

theorem reports_byte : byte.Reports Error.IsBare := by
  intro input error rest failed
  cases input <;> cases failed
  exact ⟨rfl, rfl⟩

theorem reports_uint16 : uint16.Reports Error.IsBare := by
  intro input error rest failed
  unfold uint16 at failed
  split at failed <;> cases failed
  exact ⟨rfl, rfl⟩

theorem reports_uint32 : uint32.Reports Error.IsBare := by
  intro input error rest failed
  unfold uint32 at failed
  split at failed <;> cases failed
  exact ⟨rfl, rfl⟩

theorem reports_take (count : Nat) : (take count).Reports Error.IsBare := by
  intro input error rest failed
  simp only [take] at failed
  split at failed <;> cases failed
  exact ⟨rfl, rfl⟩

theorem reports_rest {form : Error → Prop} : rest.Reports form :=
  nofun

theorem reports_binary : binary.Reports Error.IsBare :=
  reports_uint16.bind fun _ => reports_take _

theorem reports_text : text.Reports Error.IsBare := by
  refine reports_binary.bind fun raw => ?_
  cases Utf8.decode? raw with
  | some => exact reports_pure _
  | none => exact reports_fail rfl

end Reader

open Reader

theorem VarInt.reports_read : ∀ more, Reports (read byte more) Error.IsBare
  | 0 => reports_fail rfl
  | more + 1 => by
      refine reports_byte.bind fun group => ?_
      split
      · exact reports_pure _
      · exact (reports_read more).bind fun _ => reports_pure _

theorem TextPair.reports_reader : reader.Reports Error.IsBare :=
  reports_text.bind fun _ => reports_text.bind fun _ => reports_pure _

theorem Datum.reports_reader (kind : DatumKind) : (reader kind).Reports Error.IsBare := by
  cases kind with
  | byte => exact reports_byte.map _
  | uint16 => exact reports_uint16.map _
  | uint32 => exact reports_uint32.map _
  | varInt => exact (VarInt.reports_read 4).map _
  | text => exact reports_text.map _
  | pair => exact TextPair.reports_reader.map _
  | binary => exact reports_binary.map _

/-- A value that was read has the kind of its property, so it is never refused. -/
theorem Property.reports_reader : reader.Reports Error.IsBare := by
  refine (VarInt.reports_read 4).bind fun code => ?_
  split
  · exact reports_fail rfl
  · refine (Datum.reports_reader _).bind_read fun input value left read => ?_
    obtain ⟨property, made, -⟩ := Properties.make_of_reader read
    rw [made]
    exact reports_pure _

theorem Properties.reports_reader : reader.Reports Error.IsBare := by
  refine (VarInt.reports_read 4).bind fun length => (reports_take _).bind fun block => ?_
  refine Reports.bind (reports_lift fun error refused => ?_) fun _ => reports_pure _
  exact Property.reports_reader.untilEnd.all (fun _ => ⟨rfl, rfl⟩) refused

/-! ## Codes and checks -/

theorem QoS.isBare_of_ofCode {code : Nat} {error : Error} (refused : ofCode code = .error error) :
    error.IsBare := by
  unfold ofCode at refused
  split at refused <;> cases refused
  exact ⟨rfl, rfl⟩

theorem RetainHandling.isBare_of_ofCode {code : Nat} {error : Error}
    (refused : ofCode code = .error error) : error.IsBare := by
  unfold ofCode at refused
  split at refused <;> cases refused
  exact ⟨rfl, rfl⟩

theorem Topic.isBare_of_parse {name : String} {error : Error}
    (refused : parse name = .error error) :
    error.IsBare := by
  unfold parse at refused
  split at refused <;> cases refused
  exact ⟨rfl, rfl⟩

theorem SubscriptionOptions.isBare_of_ofByte {byte : UInt8} {error : Error}
    (refused : ofByte byte = .error error) : error.IsBare := by
  simp only [ofByte, bind, Except.bind] at refused
  split at refused
  · cases refused
    exact ⟨rfl, rfl⟩
  · split at refused
    · cases refused
      exact QoS.isBare_of_ofCode ‹_›
    · split at refused <;> cases refused
      exact RetainHandling.isBare_of_ofCode ‹_›

/-- The bits of a will name the field themselves, where they hold no QoS. -/
theorem ConnectFlags.isOfBody_of_willOfBits {bits : Nat} {error : Error}
    (refused : willOfBits bits = .error error) : error.IsOfBody := by
  simp only [willOfBits] at refused
  split at refused
  · split at refused <;> cases refused
    exact (QoS.isBare_of_ofCode ‹_›).inField _
  · split at refused
    · cases refused
      exact ⟨.inl rfl, rfl⟩
    · split at refused <;> cases refused
      exact ⟨.inl rfl, rfl⟩

theorem ConnectFlags.isOfBody_of_ofByte {byte : UInt8} {error : Error}
    (refused : ofByte byte = .error error) : error.IsOfBody := by
  simp only [ofByte] at refused
  split at refused
  · cases refused
    exact ⟨.inl rfl, rfl⟩
  · cases will : willOfBits byte.toNat with
    | ok flags =>
        rw [will] at refused
        cases refused
    | error inner =>
        rw [will] at refused
        cases refused
        exact isOfBody_of_willOfBits will

theorem Connack.isBare_of_sessionPresentOfByte {byte : UInt8} {error : Error}
    (refused : sessionPresentOfByte byte = .error error) : error.IsBare := by
  unfold sessionPresentOfByte at refused
  split at refused
  · cases refused
  · split at refused <;> cases refused
    exact ⟨rfl, rfl⟩

theorem Connect.isBare_of_checkClientId {clientId : String} {error : Error}
    (refused : checkClientId clientId = .error error) : error.IsBare := by
  unfold checkClientId at refused
  split at refused <;> cases refused
  exact ⟨rfl, rfl⟩

/-! ## Bodies -/

theorem Connack.reports_reader : reader.Reports Error.IsOfBody := by
  refine (reports_byte.inField _).bind fun flags => ?_
  refine Reports.bind (reports_lift fun error refused => ?_) fun sessionPresent => ?_
  · exact (isBare_of_sessionPresentOfByte refused).isOfBody
  refine (reports_byte.inField _).bind fun reasonCode => ?_
  exact (Properties.reports_reader.inField _).bind fun properties => reports_pure _

theorem Suback.reports_reader : reader.Reports Error.IsOfBody := by
  refine (reports_uint16.inField _).bind fun packetId => ?_
  refine (Properties.reports_reader.inField _).bind fun properties => ?_
  exact reports_rest.bind fun reasons => reports_pure _

theorem Disconnect.reports_reader (remainingLength : Nat) :
    (reader remainingLength).Reports Error.IsOfBody := by
  unfold reader
  split
  · exact reports_pure _
  · refine (reports_byte.inField _).bind fun reasonCode => ?_
    split
    · exact (Properties.reports_reader.inField _).bind fun properties => reports_pure _
    · exact (reports_pure _).bind fun properties => reports_pure _

theorem SubscriptionFilter.reports_optionsReader : optionsReader.Reports Error.IsBare :=
  reports_byte.bind fun _ =>
    reports_lift fun _ refused => SubscriptionOptions.isBare_of_ofByte refused

theorem SubscriptionFilter.reports_reader : reader.Reports Error.IsOfBody := by
  refine (reports_text.inField _).bind fun filter => ?_
  exact (reports_optionsReader.inField _).bind fun options => reports_pure _

theorem Subscribe.reports_reader : reader.Reports Error.IsOfBody := by
  refine (reports_uint16.inField _).bind fun packetId => ?_
  refine (Properties.reports_reader.inField _).bind fun properties => ?_
  exact SubscriptionFilter.reports_reader.untilEnd.bind fun filters => reports_pure _

theorem Publish.reports_packetIdReader : packetIdReader.Reports Error.IsBare := by
  refine reports_uint16.bind fun packetId => ?_
  split
  · exact reports_fail rfl
  · exact reports_pure _

theorem Publish.reports_reader (flags : HeaderFlags) : (reader flags).Reports Error.IsOfBody := by
  refine Reports.bind (reports_lift fun error refused => ?_) fun qos => ?_
  · exact (QoS.isBare_of_ofCode refused).isOfBody
  refine (reports_text.inField _).bind fun name => ?_
  refine Reports.bind (reports_lift fun error refused => ?_) fun topic => ?_
  · exact (Topic.isBare_of_parse refused).isOfBody
  refine (reports_packetIdReader.inField _).bind fun packetId => ?_
  refine (Properties.reports_reader.inField _).bind fun properties => ?_
  exact reports_rest.bind fun payload => reports_pure _

theorem Connect.reports_protocolReader : protocolReader.Reports Error.IsBare := by
  refine (reports_take 7).bind fun found => ?_
  dsimp only
  split
  · exact reports_fail rfl
  · split
    · exact reports_fail rfl
    · exact reports_pure _

theorem Connect.reports_willReader (flags : WillFlags) :
    (willReader flags).Reports Error.IsOfBody := by
  refine (Properties.reports_reader.inField _).bind fun properties => ?_
  refine (reports_text.inField _).bind fun topic => ?_
  exact (reports_binary.inField _).bind fun payload => reports_pure _

theorem Connect.reports_announcedWill (flags? : Option WillFlags) :
    (announcedWill flags?).Reports Error.IsOfBody := by
  cases flags? with
  | none => exact reports_pure _
  | some flags => exact (reports_willReader flags).map _

theorem Connect.reports_announced {item : Reader α} (reports : item.Reports Error.IsOfBody)
    (present : Bool) : (announced present item).Reports Error.IsOfBody := by
  cases present with
  | false => exact reports_pure _
  | true => exact reports.map _

theorem Connect.reports_reader : reader.Reports Error.IsOfBody := by
  refine reports_protocolReader.isOfBody.bind fun _ => ?_
  refine (reports_byte.inField _).bind fun flagsByte => ?_
  refine Reports.bind (reports_lift fun error refused => ?_) fun flags => ?_
  · exact ConnectFlags.isOfBody_of_ofByte refused
  refine (reports_uint16.inField _).bind fun keepAlive => ?_
  refine (Properties.reports_reader.inField _).bind fun properties => ?_
  refine (reports_text.inField _).bind fun clientId => ?_
  refine Reports.bind (reports_lift fun error refused => ?_) fun _ => ?_
  · exact (isBare_of_checkClientId refused).isOfBody
  refine (reports_announcedWill _).bind fun will => ?_
  refine (reports_announced (reports_text.inField _) _).bind fun username => ?_
  exact (reports_announced (reports_binary.inField _) _).bind fun password => reports_pure _

theorem Packet.reports_reader? {header : FixedHeader} {reader : Reader Packet}
    (known : reader? header = some reader) : reader.Reports Error.IsOfBody := by
  unfold reader? at known
  split at known <;> cases known
  · exact Connect.reports_reader.map _
  · exact Connack.reports_reader.map _
  · exact (Publish.reports_reader _).map _
  · exact Subscribe.reports_reader.map _
  · exact Suback.reports_reader.map _
  · exact (Disconnect.reports_reader _).map _

end MqttWire
