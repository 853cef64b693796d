import Firehose.Api.Proto
import Firehose.Foundation.Varint

set_option autoImplicit false

/-!
# Sizes of the messages of `firehose.proto`

`ByteSizeLong` of the generated classes, for the messages that carry a payload.
-/

namespace Firehose.Api

open Firehose.Foundation

/-- A field of type `int64`. -/
def int64Field (field : Nat) (value : Int64) : Nat := integerField field value.toUInt64

/-- A field of type `int32`, which is sent with its sign extended to 64 bits. -/
def int32Field (field : Nat) (value : Int32) : Nat := int64Field field value.toInt64

/-- `TelemetryProto::ByteSizeLong` -/
def TelemetryProto.byteSize (msg : TelemetryProto) : Nat :=
  optionalField (int64Field 1) msg.publisherId +
  optionalField (int64Field 2) msg.topicId +
  optionalField (int64Field 3) msg.globalId +
  optionalField (int64Field 4) msg.pumpId +
  optionalField (int64Field 5) msg.nuzzleId +
  (msg.engineIds.map (int64Field 6)).sum +
  optionalField (int64Field 7) msg.consumerId +
  optionalField (int64Field 8) msg.publisherSentPublish +
  optionalField (int64Field 9) msg.pumpReceivedPublish +
  optionalField (int64Field 10) msg.pumpSentPrepare +
  optionalField (int64Field 11) msg.engineReceivedPrepare +
  optionalField (int64Field 12) msg.engineSentAccept +
  optionalField (int64Field 13) msg.pumpReceivedAccept +
  optionalField (int64Field 14) msg.publisherReceivedAck +
  optionalField (int64Field 15) msg.engineSentToNuzzle +
  optionalField (int64Field 16) msg.nuzzleReceivedPublish +
  optionalField (int64Field 17) msg.nuzzleSentPublish +
  optionalField (int64Field 18) msg.consumerReceivedPublish

/-- `RequestHeaderProto::ByteSizeLong` -/
def RequestHeaderProto.byteSize (msg : RequestHeaderProto) : Nat :=
  optionalField (int32Field 1) msg.senderId +
  optionalField (int64Field 2) msg.senderRequestId +
  optionalField (fun baggage : Bytes => lengthField 3 baggage.length) msg.baggage

/-- `RequestPublishProto::ByteSizeLong` -/
def RequestPublishProto.byteSize (msg : RequestPublishProto) : Nat :=
  lengthField 1 msg.header.byteSize +
  optionalField (fun telemetry => lengthField 2 telemetry.byteSize) msg.telemetry +
  integerField 3 msg.timestamp +
  integerField 4 msg.topicId +
  optionalField (integerField 5) msg.globalId +
  lengthField 6 msg.message.length

/-- `RequestPrepareProto::ByteSizeLong` -/
def RequestPrepareProto.byteSize (msg : RequestPrepareProto) : Nat :=
  lengthField 1 msg.header.byteSize +
  optionalField (fun telemetry => lengthField 2 telemetry.byteSize) msg.telemetry +
  integerField 3 msg.timestamp +
  integerField 4 msg.globalId +
  integerField 5 msg.topicId +
  lengthField 6 msg.message.length

/-! ## The messages that the encoders build -/

theorem int64Field_of_lt {field : Nat} (h : 8 * field < 128) (word : UInt64) :
    int64Field field word.toInt64 = 1 + wordSize word := by
  unfold int64Field integerField
  rw [tagSize_of_lt (by omega), UInt64.toUInt64_toInt64]

theorem int64Field_of_le {field : Nat} (hlow : 128 ≤ 8 * field) (hhigh : 8 * field < 128 * 128)
    (word : UInt64) : int64Field field word.toInt64 = 2 + wordSize word := by
  unfold int64Field integerField
  rw [tagSize_of_le (by omega) (by omega), UInt64.toUInt64_toInt64]

/-- Number of bytes of an `int`. -/
def intSize (value : Int32) : Nat := wordSize value.toInt64.toUInt64

/-- The header of a local struct: its baggage is empty. -/
theorem byteSize_setHeader_declared (memory : RequestHeader) :
    memory.declared.setHeader.byteSize =
      4 + intSize memory.senderId + intSize memory.senderRequestId := by
  unfold RequestHeaderProto.byteSize RequestHeader.setHeader RequestHeader.declared
  simp only [optionalField_some, int32Field, int64Field, integerField, intSize,
    List.length_nil]
  rw [tagSize_of_lt (by decide), tagSize_of_lt (by decide),
    lengthField_of_lt (by decide) (by decide)]
  omega

/-- Number of bytes of the identifiers of a telemetry that `set_telemetry` sets. -/
def Telemetry.idSize (telemetry : Telemetry) : Nat :=
  wordSize telemetry.publisherId + wordSize telemetry.topicId + wordSize telemetry.globalId +
    wordSize telemetry.nuzzleId + wordSize telemetry.consumerId

theorem Telemetry.idSize_le (telemetry : Telemetry) : telemetry.idSize ≤ 50 := by
  unfold idSize
  have hpublisher := wordSize_le telemetry.publisherId
  have htopic := wordSize_le telemetry.topicId
  have hglobal := wordSize_le telemetry.globalId
  have hnuzzle := wordSize_le telemetry.nuzzleId
  have hconsumer := wordSize_le telemetry.consumerId
  omega

/-- The telemetry of a local struct: every time it holds is below 128. -/
theorem byteSize_setTelemetry_declared (memory : Telemetry) :
    memory.declared.setTelemetry.byteSize = 30 + memory.idSize := by
  have hsmall : ∀ word : UInt64, word.toNat < 128 → wordSize word = 1 :=
    fun word h => varintSize_of_lt h
  unfold TelemetryProto.byteSize Telemetry.setTelemetry Telemetry.declared Telemetry.idSize
  simp only [optionalField_some, optionalField_none, List.map_nil, List.sum_nil]
  simp (disch := decide) only [int64Field_of_lt, int64Field_of_le, hsmall]
  omega

/-- Bytes of a relayed message besides its payload with its tag and length: the header and
the telemetry hold what the local struct held, and the three numbers of the message follow. -/
def relayOverhead (header : RequestHeader) (telemetry : Telemetry)
    (timestamp topicId globalId : UInt64) : Nat :=
  41 + intSize header.senderId + intSize header.senderRequestId + telemetry.idSize +
    wordSize timestamp + wordSize topicId + wordSize globalId

theorem relayOverhead_le (header : RequestHeader) (telemetry : Telemetry)
    (timestamp topicId globalId : UInt64) :
    relayOverhead header telemetry timestamp topicId globalId ≤ 141 := by
  unfold relayOverhead intSize
  have hsender := wordSize_le header.senderId.toInt64.toUInt64
  have hrequest := wordSize_le header.senderRequestId.toInt64.toUInt64
  have hids := telemetry.idSize_le
  have htime := wordSize_le timestamp
  have htopic := wordSize_le topicId
  have hglobal := wordSize_le globalId
  omega

end Firehose.Api
