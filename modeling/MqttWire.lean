import MqttWire.Json.Packet
import MqttWire.Session
import MqttWire.Proofs.Field
import MqttWire.Proofs.Block
import MqttWire.Proofs.PackedByte
import MqttWire.Proofs.Segment
import MqttWire.Proofs.Body
import MqttWire.Proofs.WireForm
import MqttWire.Proofs.Canonical
import MqttWire.Proofs.RoundTrip
import MqttWire.Proofs.Arrival
import MqttWire.Proofs.Refusal
import MqttWire.Proofs.Stream
import MqttWire.Proofs.Transmission
import MqttWire.Proofs.Counting
import MqttWire.Proofs.Spelling
import MqttWire.Proofs.PropertyHistory
import MqttWire.Proofs.Reports
import MqttWire.Proofs.Stage
import MqttWire.Proofs.Routine
import MqttWire.Proofs.TrapFree
import MqttWire.Proofs.Accounting
import MqttWire.Proofs.JsonRoundTrip
import MqttWire.Proofs.ConnectBody
import MqttWire.Proofs.PropertyOrder
import MqttWire.Proofs.SubscriptionBody
import MqttWire.Proofs.PublishBody
import MqttWire.Proofs.DisconnectBody
import MqttWire.Proofs.PropertyCount
import MqttWire.Proofs.DatumSequence
import MqttWire.Proofs.Digits
import MqttWire.Proofs.HeaderReading
import MqttWire.Proofs.WellFormedText
import MqttWire.Proofs.LengthPrefix
