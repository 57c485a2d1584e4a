import MqttWire.Limits

/-! # UTF-8 text as bytes

Text goes to bytes and back through the encoding of `String`; bytes that are
not well-formed are located by a scan that remembers the sequence it is in.
-/

namespace MqttWire.Utf8

/-- Bytes of a text. -/
def encode (text : String) : Bytes :=
  text.toByteArray.data.toList

/-- Text with the given bytes, if they are well-formed. -/
def decode? (bytes : Bytes) : Option String :=
  String.fromUTF8? bytes.toByteArray

@[simp] theorem decode?_encode (text : String) : decode? (encode text) = some text := by
  have same : (encode text).toByteArray = text.toByteArray := by
    apply ByteArray.ext
    simp [encode]
  rw [decode?, same, String.fromUTF8?, dif_pos text.isValidUTF8]
  rfl

theorem encode_of_decode? {bytes : Bytes} {text : String} (read : decode? bytes = some text) :
    encode text = bytes := by
  unfold decode? String.fromUTF8? at read
  split at read
  · cases read
    simp [encode, String.fromUTF8]
  · cases read

/-- The first place where bytes stop being well-formed. -/
structure Fault where
  /-- Where the bad sequence starts. -/
  index : Nat
  /-- Length of its longest valid beginning; absent when the bytes end inside
      a sequence that is valid so far. -/
  length? : Option Nat
  deriving Repr, DecidableEq

/-- The fault in words. -/
def Fault.message (fault : Fault) : String :=
  match fault.length? with
  | some length =>
      s!"invalid utf-8 sequence of {length} bytes from index {fault.index}"
  | none => s!"incomplete utf-8 byte sequence from index {fault.index}"

/-- A sequence of several bytes that has been begun. -/
structure Pending where
  /-- Where the sequence starts. -/
  start : Nat
  /-- Bytes of it seen so far. -/
  seen : Nat
  /-- Bytes that must still follow the next one. -/
  missing : Nat
  /-- Least next byte. -/
  low : UInt8
  /-- Greatest next byte. -/
  high : UInt8

/-- The sequence that a lead byte begins. The ranges of the second byte leave
    out overlong forms, surrogates and what lies beyond the last character. -/
def Pending.ofLead? (start : Nat) (lead : UInt8) : Option Pending :=
  if lead < 0xC2 then none
  else if lead < 0xE0 then some ⟨start, 1, 0, 0x80, 0xBF⟩
  else if lead = 0xE0 then some ⟨start, 1, 1, 0xA0, 0xBF⟩
  else if lead = 0xED then some ⟨start, 1, 1, 0x80, 0x9F⟩
  else if lead < 0xF0 then some ⟨start, 1, 1, 0x80, 0xBF⟩
  else if lead = 0xF0 then some ⟨start, 1, 2, 0x90, 0xBF⟩
  else if lead < 0xF4 then some ⟨start, 1, 2, 0x80, 0xBF⟩
  else if lead = 0xF4 then some ⟨start, 1, 2, 0x80, 0x8F⟩
  else none

/-- The sequence after one more byte of it; absent when that byte was its last. -/
def Pending.next? (pending : Pending) : Option Pending :=
  match pending.missing with
  | 0 => none
  | missing + 1 => some ⟨pending.start, pending.seen + 1, missing, 0x80, 0xBF⟩

/-- Scan from `index` on, possibly inside a sequence. -/
def firstFaultFrom (index : Nat) : Option Pending → Bytes → Fault
  | none, [] => ⟨index, none⟩
  | some pending, [] => ⟨pending.start, none⟩
  | none, byte :: rest =>
      if byte < 0x80 then firstFaultFrom (index + 1) none rest
      else match Pending.ofLead? index byte with
        | none => ⟨index, some 1⟩
        | some pending => firstFaultFrom (index + 1) (some pending) rest
  | some pending, byte :: rest =>
      if pending.low ≤ byte ∧ byte ≤ pending.high then
        firstFaultFrom (index + 1) pending.next? rest
      else ⟨pending.start, some pending.seen⟩

/-- The first fault of bytes that are not well-formed. -/
def firstFault (bytes : Bytes) : Fault :=
  firstFaultFrom 0 none bytes

example : firstFault [0x61, 0xC3, 0x28] = ⟨1, some 1⟩ := by decide
example : firstFault [0xE2, 0x82, 0x28] = ⟨0, some 2⟩ := by decide
example : firstFault [0xF0, 0x9F, 0x8E] = ⟨0, none⟩ := by decide
example : firstFault [0xED, 0xA0, 0x80] = ⟨0, some 1⟩ := by decide

end MqttWire.Utf8
