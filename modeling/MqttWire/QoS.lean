import MqttWire.Error

/-! # Quality of service

The three delivery guarantees and their two bit codes.
-/

namespace MqttWire

/-- Delivery guarantee. -/
inductive QoS where
  | atMostOnce
  | atLeastOnce
  | exactlyOnce
  deriving Repr, DecidableEq, Inhabited

namespace QoS

def code : QoS → Nat
  | .atMostOnce => 0
  | .atLeastOnce => 1
  | .exactlyOnce => 2

theorem code_le (qos : QoS) : qos.code ≤ 2 := by
  cases qos <;> decide

def ofCode : Nat → Except Error QoS
  | 0 => .ok .atMostOnce
  | 1 => .ok .atLeastOnce
  | 2 => .ok .exactlyOnce
  | other => .error (Fault.invalidQoS other)

@[simp] theorem ofCode_code (qos : QoS) : ofCode qos.code = .ok qos := by
  cases qos <;> rfl

end QoS

end MqttWire
