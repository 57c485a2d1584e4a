import MqttWire.Packet

/-! # Bytes that carry several values

Flags, options and the first byte of a packet put several values into the bits
of one byte. The values determine the byte, and a byte that is accepted is the
one its values make up: no bit is ignored.
-/

namespace MqttWire

theorem QoS.code_of_ofCode {code : Nat} {qos : QoS} (found : QoS.ofCode code = .ok qos) :
    qos.code = code := by
  unfold QoS.ofCode at found
  split at found <;> cases found <;> rfl

theorem RetainHandling.code_of_ofCode {code : Nat} {handling : RetainHandling}
    (found : RetainHandling.ofCode code = .ok handling) : handling.code = code := by
  unfold RetainHandling.ofCode at found
  split at found <;> cases found <;> rfl

namespace ConnectFlags

theorem ofByte_toByte (flags : ConnectFlags) : ofByte flags.toByte = .ok flags := by
  obtain ⟨cleanStart, will, password, username⟩ := flags
  cases will with
  | none => cases cleanStart <;> cases password <;> cases username <;> rfl
  | some will =>
      obtain ⟨qos, retain⟩ := will
      cases cleanStart <;> cases password <;> cases username <;> cases qos <;> cases retain <;> rfl

/-- The bits from 2 to 5 are those of the will. -/
theorem willBits_of_willOfBits {bits : Nat} {will : Option WillFlags}
    (found : willOfBits bits = .ok will) : willBits will = bits / 4 % 16 * 4 := by
  have presence := Nat.toNat_testBit bits 2
  have retain := Nat.toNat_testBit bits 5
  simp only [willOfBits] at found
  split at found
  · rename_i present
    split at found
    · rename_i qos known
      cases found
      have code := QoS.code_of_ofCode known
      rw [present] at presence
      simp only [Bool.toNat_true] at presence
      simp only [willBits, code, retain]
      omega
    · cases found
  · rename_i absent
    split at found
    · cases found
    · rename_i notRetained
      split at found
      · cases found
      · rename_i noQoS
        cases found
        simp only [Bool.not_eq_true] at absent notRetained
        rw [absent, Bool.toNat_false] at presence
        rw [notRetained, Bool.toNat_false] at retain
        simp only [willBits]
        omega

theorem toByte_of_ofByte {byte : UInt8} {flags : ConnectFlags} (found : ofByte byte = .ok flags) :
    flags.toByte = byte := by
  have small := byte.toNat_lt
  have reserved := Nat.toNat_testBit byte.toNat 0
  simp only [ofByte] at found
  split at found
  · cases found
  · rename_i clear
    cases read : willOfBits byte.toNat with
    | error => simp [read, Except.map] at found
    | ok will =>
        simp only [read, Except.map, Except.ok.injEq] at found
        have willBits := willBits_of_willOfBits read
        rw [Bool.not_eq_true] at clear
        rw [clear, Bool.toNat_false] at reserved
        rw [← found, ← UInt8.toNat_inj]
        simp only [toByte, Nat.toNat_testBit, willBits, UInt8.toNat_ofNat']
        omega

theorem ofByte_eq_ok {byte : UInt8} {flags : ConnectFlags} :
    ofByte byte = .ok flags ↔ flags.toByte = byte :=
  ⟨toByte_of_ofByte, fun same => same ▸ ofByte_toByte flags⟩

end ConnectFlags

namespace SubscriptionOptions

theorem ofByte_toByte (options : SubscriptionOptions) : ofByte options.toByte = .ok options := by
  obtain ⟨maxQoS, noLocal, retainAsPublished, retainHandling⟩ := options
  cases maxQoS <;> cases noLocal <;> cases retainAsPublished <;> cases retainHandling <;> rfl

theorem toByte_of_ofByte {byte : UInt8} {options : SubscriptionOptions}
    (found : ofByte byte = .ok options) : options.toByte = byte := by
  simp only [ofByte] at found
  split at found
  · cases found
  · rename_i notReserved
    cases readQoS : QoS.ofCode (byte.toNat % 4) with
    | error => simp [readQoS, bind, Except.bind] at found
    | ok maxQoS =>
        cases readHandling : RetainHandling.ofCode (byte.toNat / 16 % 4) with
        | error => simp [readQoS, readHandling, bind, Except.bind] at found
        | ok retainHandling =>
            simp only [readQoS, readHandling, bind, Except.bind, pure, Except.pure,
              Except.ok.injEq] at found
            have qosCode := QoS.code_of_ofCode readQoS
            have handlingCode := RetainHandling.code_of_ofCode readHandling
            rw [← found, ← UInt8.toNat_inj]
            simp only [toByte, Nat.toNat_testBit, qosCode, handlingCode, UInt8.toNat_ofNat']
            omega

theorem ofByte_eq_ok {byte : UInt8} {options : SubscriptionOptions} :
    ofByte byte = .ok options ↔ options.toByte = byte :=
  ⟨toByte_of_ofByte, fun same => same ▸ ofByte_toByte options⟩

end SubscriptionOptions

theorem Connack.sessionPresentOfByte_eq_ok {byte : UInt8} {sessionPresent : Bool} :
    sessionPresentOfByte byte = .ok sessionPresent ↔ (if sessionPresent then 1 else 0) = byte := by
  unfold sessionPresentOfByte
  constructor
  · intro found
    split at found
    · rename_i clear
      cases found
      exact clear.symm
    · split at found
      · rename_i set
        cases found
        exact set.symm
      · cases found
  · rintro rfl
    cases sessionPresent <;> rfl

/-! ## The first byte of a packet -/

namespace Publish

theorem ofCode_flags (packet : Publish) :
    QoS.ofCode (packet.flags.val / 2 % 4) = .ok packet.qos ∧
      packet.flags.val.testBit 3 = packet.dup ∧ packet.flags.val.testBit 0 = packet.retain := by
  simp only [Publish.flags]
  cases packet.dup <;> cases packet.qos <;> cases packet.retain <;>
    exact ⟨rfl, by decide, by decide⟩

theorem flags_of_ofCode {flags : HeaderFlags} {packet : Publish}
    (known : QoS.ofCode (flags.val / 2 % 4) = .ok packet.qos)
    (dup : flags.val.testBit 3 = packet.dup) (retain : flags.val.testBit 0 = packet.retain) :
    packet.flags = flags := by
  have small := flags.isLt
  have code := QoS.code_of_ofCode known
  apply Fin.ext
  simp only [Publish.flags, code, ← dup, ← retain, Nat.toNat_testBit]
  omega

/-- The header flags are those whose bits hold the fields. -/
theorem flags_eq_iff {flags : HeaderFlags} {packet : Publish} :
    packet.flags = flags ↔ QoS.ofCode (flags.val / 2 % 4) = .ok packet.qos ∧
      flags.val.testBit 3 = packet.dup ∧ flags.val.testBit 0 = packet.retain :=
  ⟨fun same => same ▸ packet.ofCode_flags, fun ⟨known, dup, retain⟩ =>
    flags_of_ofCode known dup retain⟩

end Publish

namespace FixedHeader

theorem toNat_firstByte (header : FixedHeader) :
    header.firstByte.toNat = header.type.code * 16 + header.flags := by
  have type := header.type.code_lt
  have flags := header.flags.isLt
  rw [firstByte, UInt8.toNat_ofNat', Nat.mod_eq_of_lt (by omega)]

theorem flagsOfByte_firstByte (header : FixedHeader) :
    flagsOfByte header.firstByte = header.flags := by
  have flags := header.flags.isLt
  apply Fin.ext
  simp only [flagsOfByte, toNat_firstByte]
  omega

theorem firstByte_of_ofCode? {first : UInt8} {type : PacketType} (remainingLength : Nat)
    (known : PacketType.ofCode? (first.toNat / 16) = some type) :
    firstByte ⟨type, flagsOfByte first, remainingLength⟩ = first := by
  have code := PacketType.code_of_ofCode? known
  rw [← UInt8.toNat_inj, toNat_firstByte]
  simp only [code, flagsOfByte]
  omega

theorem ofCode?_firstByte (header : FixedHeader) :
    PacketType.ofCode? (header.firstByte.toNat / 16) = some header.type := by
  have flags := header.flags.isLt
  have code : header.firstByte.toNat / 16 = header.type.code := by
    rw [toNat_firstByte]
    omega
  rw [code, PacketType.ofCode?_code]

end FixedHeader

/-! ## Bit by bit -/

/-- Whether the bit at a place is set, the lowest being at place 0. -/
def hasBit (byte : UInt8) (place : Nat) : Bool := byte.toNat.testBit place

/-- The QoS that two bits stand for, which are not both set. -/
def QoS.ofBits (low high : Bool) : QoS :=
  if high then .exactlyOnce else if low then .atLeastOnce else .atMostOnce

theorem QoS.ofCode_bits_eq_ok {low high : Bool} {qos : QoS} :
    ofCode (low.toNat + 2 * high.toNat) = .ok qos ↔
      ¬(low ∧ high) ∧ ofBits low high = qos := by
  cases low <;> cases high <;> simp [ofCode, ofBits]

/-- The retain handling that two bits stand for, which are not both set. -/
def RetainHandling.ofBits (low high : Bool) : RetainHandling :=
  if high then .doNotSend else if low then .sendIfNew else .sendAtSubscribe

theorem RetainHandling.ofCode_bits_eq_ok {low high : Bool} {handling : RetainHandling} :
    ofCode (low.toNat + 2 * high.toNat) = .ok handling ↔
      ¬(low ∧ high) ∧ ofBits low high = handling := by
  cases low <;> cases high <;> simp [ofCode, ofBits]

namespace ConnectFlags

/-- Bits that may be set together in the flags byte of a CONNECT. -/
structure IsLegal (byte : UInt8) : Prop where
  reserved : ¬hasBit byte 0
  willQoS : ¬(hasBit byte 3 ∧ hasBit byte 4)
  withoutWill : ¬hasBit byte 2 → ¬hasBit byte 3 ∧ ¬hasBit byte 4 ∧ ¬hasBit byte 5

/-- What the bits say of a will. -/
def willFlagsOfBits (byte : UInt8) : WillFlags where
  qos := .ofBits (hasBit byte 3) (hasBit byte 4)
  retain := hasBit byte 5

/-- What the bits say, if they are legal. -/
def ofBits (byte : UInt8) : ConnectFlags where
  cleanStart := hasBit byte 1
  will := if hasBit byte 2 then some (willFlagsOfBits byte) else none
  password := hasBit byte 6
  username := hasBit byte 7

theorem willOfBits_eq_ok {byte : UInt8} {will : Option WillFlags} :
    willOfBits byte.toNat = .ok will ↔
      ¬(hasBit byte 3 ∧ hasBit byte 4) ∧
        (¬hasBit byte 2 → ¬hasBit byte 3 ∧ ¬hasBit byte 4 ∧ ¬hasBit byte 5) ∧
        (if hasBit byte 2 then some (willFlagsOfBits byte) else none) = will := by
  have present : byte.toNat.testBit 2 = hasBit byte 2 := rfl
  have retain : byte.toNat.testBit 5 = hasBit byte 5 := rfl
  have code : byte.toNat / 8 % 4 = (hasBit byte 3).toNat + 2 * (hasBit byte 4).toNat := by
    simp only [hasBit, Nat.toNat_testBit]
    omega
  simp only [willOfBits, present, retain, code, willFlagsOfBits]
  cases hasBit byte 2 <;> cases hasBit byte 3 <;> cases hasBit byte 4 <;> cases hasBit byte 5 <;>
    simp [QoS.ofCode, QoS.ofBits]

/-- The flags byte is taken bit by bit. -/
theorem toByte_eq_iff {flags : ConnectFlags} {byte : UInt8} :
    flags.toByte = byte ↔ IsLegal byte ∧ ofBits byte = flags := by
  have reserved : byte.toNat.testBit 0 = hasBit byte 0 := rfl
  rw [← ofByte_eq_ok]
  simp only [ofByte, reserved]
  cases clear : hasBit byte 0 with
  | true => exact ⟨nofun, fun legal => absurd clear legal.1.reserved⟩
  | false =>
      rw [if_neg Bool.false_ne_true]
      constructor
      · intro found
        cases read : willOfBits byte.toNat with
        | error => simp [read, Except.map] at found
        | ok will =>
            obtain ⟨willQoS, withoutWill, rfl⟩ := willOfBits_eq_ok.1 read
            rw [read] at found
            cases found
            exact ⟨⟨by simp [clear], willQoS, withoutWill⟩, rfl⟩
      · intro legal
        obtain ⟨⟨-, willQoS, withoutWill⟩, rfl⟩ := legal
        rw [willOfBits_eq_ok.2 ⟨willQoS, withoutWill, rfl⟩]
        rfl

end ConnectFlags

namespace SubscriptionOptions

/-- Bits that may be set together in an options byte. -/
structure IsLegal (byte : UInt8) : Prop where
  reserved : ¬hasBit byte 6 ∧ ¬hasBit byte 7
  maxQoS : ¬(hasBit byte 0 ∧ hasBit byte 1)
  retainHandling : ¬(hasBit byte 4 ∧ hasBit byte 5)

/-- What the bits say, if they are legal. -/
def ofBits (byte : UInt8) : SubscriptionOptions where
  maxQoS := .ofBits (hasBit byte 0) (hasBit byte 1)
  noLocal := hasBit byte 2
  retainAsPublished := hasBit byte 3
  retainHandling := .ofBits (hasBit byte 4) (hasBit byte 5)

theorem le_toNat_iff {byte : UInt8} : 64 ≤ byte.toNat ↔ hasBit byte 6 ∨ hasBit byte 7 := by
  have small := byte.toNat_lt
  simp only [hasBit, ← Bool.toNat_eq_one, Nat.toNat_testBit]
  omega

/-- The options byte is taken bit by bit. -/
theorem toByte_eq_iff {options : SubscriptionOptions} {byte : UInt8} :
    options.toByte = byte ↔ IsLegal byte ∧ ofBits byte = options := by
  have qosCode : byte.toNat % 4 = (hasBit byte 0).toNat + 2 * (hasBit byte 1).toNat := by
    simp only [hasBit, Nat.toNat_testBit]
    omega
  have handlingCode : byte.toNat / 16 % 4 = (hasBit byte 4).toNat + 2 * (hasBit byte 5).toNat := by
    simp only [hasBit, Nat.toNat_testBit]
    omega
  rw [← ofByte_eq_ok]
  simp only [ofByte, qosCode, handlingCode]
  split
  · rename_i large
    have reserved := le_toNat_iff.1 large
    exact ⟨nofun, fun legal => absurd reserved (not_or.2 legal.1.reserved)⟩
  · rename_i small
    have reserved := not_or.1 (mt le_toNat_iff.2 small)
    constructor
    · intro found
      cases readQoS : QoS.ofCode ((hasBit byte 0).toNat + 2 * (hasBit byte 1).toNat) with
      | error => simp [readQoS, bind, Except.bind] at found
      | ok maxQoS =>
          cases readHandling :
              RetainHandling.ofCode ((hasBit byte 4).toNat + 2 * (hasBit byte 5).toNat) with
          | error => simp [readQoS, readHandling, bind, Except.bind] at found
          | ok handling =>
              simp only [readQoS, readHandling] at found
              obtain ⟨legalQoS, rfl⟩ := QoS.ofCode_bits_eq_ok.1 readQoS
              obtain ⟨legalHandling, rfl⟩ := RetainHandling.ofCode_bits_eq_ok.1 readHandling
              cases found
              exact ⟨⟨reserved, legalQoS, legalHandling⟩, rfl⟩
    · intro legal
      obtain ⟨⟨-, legalQoS, legalHandling⟩, rfl⟩ := legal
      rw [QoS.ofCode_bits_eq_ok.2 ⟨legalQoS, rfl⟩,
        RetainHandling.ofCode_bits_eq_ok.2 ⟨legalHandling, rfl⟩]
      rfl

end SubscriptionOptions

/-- The header flags of a PUBLISH are taken bit by bit. -/
theorem Publish.flags_eq_iff_bits {flags : HeaderFlags} {packet : Publish} :
    packet.flags = flags ↔ ¬(flags.val.testBit 1 ∧ flags.val.testBit 2) ∧
      QoS.ofBits (flags.val.testBit 1) (flags.val.testBit 2) = packet.qos ∧
      flags.val.testBit 3 = packet.dup ∧ flags.val.testBit 0 = packet.retain := by
  have code : flags.val / 2 % 4 =
      (flags.val.testBit 1).toNat + 2 * (flags.val.testBit 2).toNat := by
    simp only [Nat.toNat_testBit]
    omega
  rw [flags_eq_iff, code, QoS.ofCode_bits_eq_ok, and_assoc]

end MqttWire
