import Firehose.Api.RoundTrip
import Firehose.Api.Size
import Firehose.Network.Message
import Firehose.Node.Engine
import Firehose.Node.Nuzzle
import Firehose.Node.Pump

set_option autoImplicit false

/-!
# The length of a relayed message

Only a receiver compares the length of a message with `max_header_len`.  What a pump or an
engine makes of a message has fields that the message may lack, so a message that was
short enough to be received may be too long to be sent on.
-/

namespace Firehose.Node

open Firehose.Api Firehose.Foundation Firehose.Network

variable {E : Type}

/-- What a pump sends to its engines for a publish it has received. -/
def prepareFor (pump : Pump E) (memory : RequestPrepare) (m : RequestPublishProto) :
    RequestPrepareProto :=
  Pump.MsgPrepareReqTx.set (pump.prepareOf memory (Pump.MsgPublishReqRx.get m))

/-- What an engine sends to its nuzzles for a prepare it has received. -/
def copyFor (memory : RequestPublish) (m : RequestPrepareProto) : RequestPublishProto :=
  Engine.MsgPublishReqTx.set (Engine.publishOf memory (Engine.MsgPrepareReqRx.get m))

/-- What a nuzzle sends to its consumers for a copy it has received. -/
def deliveryFor (m : RequestPublishProto) : RequestPublishProto :=
  Nuzzle.MsgPublishReqTx.set (Nuzzle.MsgPublishReqRx.get m)

/-! ## The lengths -/

theorem lengthField_header (memory : RequestHeader) :
    lengthField 1 memory.declared.setHeader.byteSize =
      6 + intSize memory.senderId + intSize memory.senderRequestId := by
  have hsender := wordSize_le memory.senderId.toInt64.toUInt64
  have hrequest := wordSize_le memory.senderRequestId.toInt64.toUInt64
  rw [byteSize_setHeader_declared, lengthField_of_lt (by decide) (by unfold intSize; omega)]
  omega

theorem lengthField_telemetry (memory : Telemetry) :
    lengthField 2 memory.declared.setTelemetry.byteSize = 32 + memory.idSize := by
  have hids := memory.idSize_le
  rw [byteSize_setTelemetry_declared, lengthField_of_lt (by decide) (by omega)]
  omega

theorem integerField_of_lt {field : Nat} (h : 8 * field < 128) (word : UInt64) :
    integerField field word = 1 + wordSize word := by
  unfold integerField
  rw [tagSize_of_lt (by omega)]

theorem byteSize_prepareFor (pump : Pump E) (memory : RequestPrepare)
    (m : RequestPublishProto) :
    (prepareFor pump memory m).byteSize =
      relayOverhead memory.header memory.telemetry m.timestamp m.topicId
          pump.globalRequestIdSeed +
        lengthField 6 m.message.length := by
  unfold prepareFor RequestPrepareProto.byteSize relayOverhead
  simp only [Pump.prepareOf, RequestPrepare.declared, RequestPrepare.set,
    RequestPublishProto.get, optionalField_some, lengthField_header, lengthField_telemetry]
  simp (disch := decide) only [integerField_of_lt]
  omega

theorem byteSize_copyFor (memory : RequestPublish) (m : RequestPrepareProto) :
    (copyFor memory m).byteSize =
      relayOverhead memory.header memory.telemetry m.timestamp m.topicId m.globalId +
        lengthField 6 m.message.length := by
  unfold copyFor RequestPublishProto.byteSize relayOverhead
  simp only [Engine.publishOf, RequestPublish.declared, RequestPublish.set,
    RequestPrepareProto.get, optionalField_some, lengthField_header, lengthField_telemetry]
  simp (disch := decide) only [integerField_of_lt]
  omega

/-- A nuzzle sends on what it has received from an engine. -/
theorem deliveryFor_copyFor (memory : RequestPublish) (m : RequestPrepareProto) :
    deliveryFor (copyFor memory m) = copyFor memory m := by
  have htelemetry : ∀ telemetry : Telemetry,
      (decodedTelemetry (some telemetry.declared.setTelemetry)).setTelemetry =
        telemetry.declared.setTelemetry := by
    intro telemetry
    unfold decodedTelemetry
    rw [Option.getD_some, Telemetry.getTelemetry_setTelemetry]
    rfl
  unfold deliveryFor copyFor
  simp only [Engine.publishOf, RequestPublish.declared, RequestPublish.set,
    RequestPublishProto.get, RequestPrepareProto.get, RequestHeader.getHeader_setHeader,
    htelemetry, Option.getD_some]

/-! ## The buffers -/

/-- Near the limit the payload is preceded by its tag and a length of four bytes. -/
theorem lengthField_fits_iff {overhead length : Nat} (hover : overhead ≤ 141) :
    overhead + lengthField 6 length ≤ maxHeaderLen ↔ length + 5 + overhead ≤ maxHeaderLen := by
  unfold lengthField maxHeaderLen
  rw [tagSize_of_lt (by decide)]
  constructor
  · intro h
    rcases Nat.lt_or_ge length (128 ^ 3) with hsmall | hlarge
    · omega
    · have hfour := lt_varintSize hlarge
      omega
  · intro h
    have hfour : varintSize length ≤ 4 := varintSize_le (k := 3) (by omega)
    omega

/-- What the relays make of a publish fits the buffer of every sender and is accepted by
every receiver; `engineMemory` is what the local variable of each engine holds. -/
structure RelaysFit {A : Type} (pump : Pump E) (memory : RequestPrepare)
    (engineMemory : A → RequestPublish) (m : RequestPublishProto) : Prop where
  prepare : (prepareFor pump memory m).byteSize ≤ maxHeaderLen
  copies : ∀ a, (copyFor (engineMemory a) (prepareFor pump memory m)).byteSize ≤ maxHeaderLen
  deliveries : ∀ a, (deliveryFor (copyFor (engineMemory a) (prepareFor pump memory m))).byteSize ≤
    maxHeaderLen

/-- A publish fits on its whole way exactly when its payload leaves room for what the pump
and each engine put in front of it. -/
theorem relaysFit_iff {A : Type} (pump : Pump E) (memory : RequestPrepare)
    (engineMemory : A → RequestPublish) (m : RequestPublishProto) :
    RelaysFit pump memory engineMemory m ↔
      m.message.length + 5 + relayOverhead memory.header memory.telemetry m.timestamp m.topicId
          pump.globalRequestIdSeed ≤ maxHeaderLen ∧
        ∀ a, m.message.length + 5 + relayOverhead (engineMemory a).header
          (engineMemory a).telemetry m.timestamp m.topicId pump.globalRequestIdSeed ≤
            maxHeaderLen := by
  have hprepare : (prepareFor pump memory m).byteSize ≤ maxHeaderLen ↔
      m.message.length + 5 + relayOverhead memory.header memory.telemetry m.timestamp m.topicId
        pump.globalRequestIdSeed ≤ maxHeaderLen := by
    rw [byteSize_prepareFor]
    exact lengthField_fits_iff (relayOverhead_le ..)
  have hcopy : ∀ a, (copyFor (engineMemory a) (prepareFor pump memory m)).byteSize ≤
      maxHeaderLen ↔ m.message.length + 5 + relayOverhead (engineMemory a).header
        (engineMemory a).telemetry m.timestamp m.topicId pump.globalRequestIdSeed ≤
          maxHeaderLen := by
    intro a
    rw [byteSize_copyFor]
    exact lengthField_fits_iff (relayOverhead_le ..)
  constructor
  · rintro ⟨hp, hc, -⟩
    exact ⟨hprepare.mp hp, fun a => (hcopy a).mp (hc a)⟩
  · rintro ⟨hp, hc⟩
    refine ⟨hprepare.mpr hp, fun a => (hcopy a).mpr (hc a), fun a => ?_⟩
    rw [deliveryFor_copyFor]
    exact (hcopy a).mpr (hc a)

/-- A publish without optional fields, with a payload of so many bytes. -/
def publishOfLength (length : Nat) : RequestPublishProto :=
  { (default : RequestPublishProto) with message := List.replicate length 0 }

theorem length_publishOfLength (length : Nat) :
    (publishOfLength length).message.length = length := List.length_replicate

theorem byteSize_publishOfLength (length : Nat) :
    (publishOfLength length).byteSize = 6 + lengthField 6 length := by
  have hheader : (publishOfLength length).header.byteSize = 0 := rfl
  have hzero : wordSize 0 = 1 := varintSize_of_lt (by decide)
  have htime : (publishOfLength length).timestamp = 0 := rfl
  have htopic : (publishOfLength length).topicId = 0 := rfl
  have habsent : (publishOfLength length).telemetry = none ∧
      (publishOfLength length).globalId = none := ⟨rfl, rfl⟩
  unfold RequestPublishProto.byteSize
  rw [hheader, htime, htopic, habsent.1, habsent.2, length_publishOfLength]
  simp (disch := decide) only [integerField_of_lt, hzero, lengthField_of_lt, optionalField_none]

/-- One that is as long as the buffer is accepted by the pump, and the prepare made of it is
too long. -/
theorem publishOfLength_not_relaysFit :
    ¬ ∀ (pump : Pump (Fin 1)) (memory : RequestPrepare) (engineMemory : Fin 1 → RequestPublish)
      (m : RequestPublishProto), m.byteSize ≤ maxHeaderLen →
        RelaysFit pump memory engineMemory m := by
  intro hclaim
  have hmax : maxHeaderLen = 10485760 := rfl
  have haccepted : (publishOfLength 10485749).byteSize ≤ maxHeaderLen := by
    rw [byteSize_publishOfLength, lengthField_fits_iff (by decide), hmax]
  have hfit := (hclaim .new default (fun _ => default) _ haccepted).prepare
  rw [byteSize_prepareFor, lengthField_fits_iff (relayOverhead_le ..),
    length_publishOfLength, hmax] at hfit
  unfold relayOverhead at hfit
  omega

end Firehose.Node
