import Firehose.Api.Serialization
import Firehose.Api.Size

set_option autoImplicit false

/-!
# What is serialised is as long as `ByteSizeLong` says

`get_tx_header_len` is `ByteSizeLong`, and `serialize_tx_header` writes into a buffer without
being told its size.
-/

namespace Firehose.Api

open Firehose.Foundation

/-! ## The other messages -/

/-- `ResponseHeaderProto::ByteSizeLong` -/
def ResponseHeaderProto.byteSize (msg : ResponseHeaderProto) : Nat :=
  optionalField (int64Field 1) msg.senderRequestId +
  optionalField (int32Field 2) msg.status +
  optionalField (fun message : Bytes => lengthField 3 message.length) msg.message +
  optionalField (fun baggage : Bytes => lengthField 4 baggage.length) msg.baggage

/-- `ResponsePublishProto::ByteSizeLong` -/
def ResponsePublishProto.byteSize (msg : ResponsePublishProto) : Nat :=
  lengthField 1 msg.header.byteSize +
  optionalField (fun telemetry => lengthField 2 telemetry.byteSize) msg.telemetry +
  integerField 3 msg.timestamp +
  integerField 4 msg.topicId +
  optionalField (integerField 5) msg.globalId

/-- `ResponsePrepareProto::ByteSizeLong` -/
def ResponsePrepareProto.byteSize (msg : ResponsePrepareProto) : Nat :=
  lengthField 1 msg.header.byteSize +
  optionalField (fun telemetry => lengthField 2 telemetry.byteSize) msg.telemetry +
  integerField 3 msg.timestamp +
  integerField 4 msg.globalId +
  integerField 5 msg.topicId

/-- `RequestAcceptProto::ByteSizeLong` -/
def RequestAcceptProto.byteSize (msg : RequestAcceptProto) : Nat :=
  lengthField 1 msg.header.byteSize +
  optionalField (fun telemetry => lengthField 2 telemetry.byteSize) msg.telemetry +
  integerField 3 msg.timestamp +
  integerField 4 msg.globalId +
  integerField 5 msg.topicId

/-- `RequestUpdateSubscriptionProto::ByteSizeLong` -/
def RequestUpdateSubscriptionProto.byteSize (msg : RequestUpdateSubscriptionProto) : Nat :=
  lengthField 1 msg.header.byteSize +
  optionalField (fun telemetry => lengthField 2 telemetry.byteSize) msg.telemetry +
  integerField 3 msg.timestamp +
  integerField 4 msg.topicId +
  integerField 5 msg.action.toUInt64

/-! ## The bytes of a message -/

section Items

variable {number : Nat}

@[simp] theorem fieldsSize_int64Item (value : Int64) :
    fieldsSize (int64Item number value) = int64Field number value := rfl

@[simp] theorem fieldsSize_int32Item (value : Int32) :
    fieldsSize (int32Item number value) = int32Field number value := rfl

end Items

theorem TelemetryProto.size_format (msg : TelemetryProto) : format.size msg = msg.byteSize := by
  simp only [Format.size, format, byteSize, fieldsSize_append, fieldsSize_optionally,
    fieldsSize_repeatedly, fieldsSize_int64Item]

theorem RequestHeaderProto.size_format (msg : RequestHeaderProto) :
    format.size msg = msg.byteSize := by
  simp only [Format.size, format, byteSize, fieldsSize_append, fieldsSize_optionally,
    fieldsSize_int64Item, fieldsSize_int32Item, fieldsSize_bytesField]

theorem ResponseHeaderProto.size_format (msg : ResponseHeaderProto) :
    format.size msg = msg.byteSize := by
  simp only [Format.size, format, byteSize, fieldsSize_append, fieldsSize_optionally,
    fieldsSize_int64Item, fieldsSize_int32Item, fieldsSize_bytesField]

theorem le_lengthField (field length : Nat) : length ≤ lengthField field length :=
  Nat.le_add_left _ _

theorem length_serialize_of_size {M : Type} {format : Format M} {m : M} {n : Nat}
    (hsize : format.size m = n) (h : n < 2 ^ 64) : (format.serialize m).length = n := by
  rw [← hsize] at h ⊢
  exact format.length_serialize h

/-- The header and the telemetry of a message that has a size of 64 bits. -/
theorem fieldsSize_parts {H : Type} {format : Format H} {byteSize : H → Nat}
    (hsize : ∀ m, format.size m = byteSize m) (header : H) (telemetry : Option TelemetryProto)
    (h : lengthField 1 (byteSize header) +
      optionalField (fun t : TelemetryProto => lengthField 2 t.byteSize) telemetry < 2 ^ 64) :
    fieldsSize (format.field 1 header) = lengthField 1 (byteSize header) ∧
      fieldsSize (optionally (TelemetryProto.format.field 2) telemetry) =
        optionalField (fun t : TelemetryProto => lengthField 2 t.byteSize) telemetry := by
  have hheader := le_lengthField 1 (byteSize header)
  constructor
  · rw [Format.field, fieldsSize_bytesField, length_serialize_of_size (hsize header) (by omega)]
  · cases telemetry with
    | none => rfl
    | some t =>
        have htelemetry := le_lengthField 2 t.byteSize
        rw [optionalField_some] at h ⊢
        rw [optionally, Format.field, fieldsSize_bytesField,
          length_serialize_of_size t.size_format (by omega)]

theorem RequestPublishProto.length_serialize (msg : RequestPublishProto)
    (h : msg.byteSize < 2 ^ 64) : (format.serialize msg).length = msg.byteSize := by
  refine length_serialize_of_size ?_ h
  unfold byteSize at h
  obtain ⟨hheader, htelemetry⟩ :=
    fieldsSize_parts RequestHeaderProto.size_format msg.header msg.telemetry (by omega)
  simp only [Format.size, format, byteSize, fieldsSize_append, hheader, htelemetry,
    fieldsSize_wordField, fieldsSize_optionally, fieldsSize_bytesField]

theorem ResponsePublishProto.length_serialize (msg : ResponsePublishProto)
    (h : msg.byteSize < 2 ^ 64) : (format.serialize msg).length = msg.byteSize := by
  refine length_serialize_of_size ?_ h
  unfold byteSize at h
  obtain ⟨hheader, htelemetry⟩ :=
    fieldsSize_parts ResponseHeaderProto.size_format msg.header msg.telemetry (by omega)
  simp only [Format.size, format, byteSize, fieldsSize_append, hheader, htelemetry,
    fieldsSize_wordField, fieldsSize_optionally]

theorem RequestPrepareProto.length_serialize (msg : RequestPrepareProto)
    (h : msg.byteSize < 2 ^ 64) : (format.serialize msg).length = msg.byteSize := by
  refine length_serialize_of_size ?_ h
  unfold byteSize at h
  obtain ⟨hheader, htelemetry⟩ :=
    fieldsSize_parts RequestHeaderProto.size_format msg.header msg.telemetry (by omega)
  simp only [Format.size, format, byteSize, fieldsSize_append, hheader, htelemetry,
    fieldsSize_wordField, fieldsSize_bytesField]

theorem ResponsePrepareProto.length_serialize (msg : ResponsePrepareProto)
    (h : msg.byteSize < 2 ^ 64) : (format.serialize msg).length = msg.byteSize := by
  refine length_serialize_of_size ?_ h
  unfold byteSize at h
  obtain ⟨hheader, htelemetry⟩ :=
    fieldsSize_parts ResponseHeaderProto.size_format msg.header msg.telemetry (by omega)
  simp only [Format.size, format, byteSize, fieldsSize_append, hheader, htelemetry,
    fieldsSize_wordField]

theorem RequestAcceptProto.length_serialize (msg : RequestAcceptProto)
    (h : msg.byteSize < 2 ^ 64) : (format.serialize msg).length = msg.byteSize := by
  refine length_serialize_of_size ?_ h
  unfold byteSize at h
  obtain ⟨hheader, htelemetry⟩ :=
    fieldsSize_parts RequestHeaderProto.size_format msg.header msg.telemetry (by omega)
  simp only [Format.size, format, byteSize, fieldsSize_append, hheader, htelemetry,
    fieldsSize_wordField]

theorem RequestUpdateSubscriptionProto.length_serialize (msg : RequestUpdateSubscriptionProto)
    (h : msg.byteSize < 2 ^ 64) : (format.serialize msg).length = msg.byteSize := by
  refine length_serialize_of_size ?_ h
  unfold byteSize at h
  obtain ⟨hheader, htelemetry⟩ :=
    fieldsSize_parts RequestHeaderProto.size_format msg.header msg.telemetry (by omega)
  simp only [Format.size, format, byteSize, fieldsSize_append, hheader, htelemetry,
    fieldsSize_wordField]

/-! ## Bounds of the messages that the encoders build -/

theorem integerField_le (field : Nat) (hfield : 8 * field + 2 < 128 * 128) (word : UInt64) :
    integerField field word ≤ 12 := by
  have htag : tagSize field 0 ≤ 2 := varintSize_le (k := 1) (by omega)
  have hword := wordSize_le word
  unfold integerField
  omega

theorem lengthField_le (field : Nat) (hfield : 8 * field + 2 < 128 * 128) {length : Nat}
    (hlength : length < 2 ^ 63) : lengthField field length ≤ 12 + length := by
  have htag : tagSize field 2 ≤ 2 := varintSize_le (k := 1) (by omega)
  have hsize : varintSize length ≤ 10 := varintSize_le (Nat.lt_of_lt_of_le hlength (by decide))
  unfold lengthField
  omega

theorem RequestHeader.byteSize_setHeader_le {header : RequestHeader}
    (h : header.baggage.length < 2 ^ 60) :
    header.setHeader.byteSize ≤ 36 + header.baggage.length := by
  have hsender := integerField_le 1 (by decide) header.senderId.toInt64.toUInt64
  have hrequest := integerField_le 2 (by decide) header.senderRequestId.toInt64.toUInt64
  have hbaggage := lengthField_le 3 (by decide) (Nat.lt_of_lt_of_le h (by decide))
  simp only [RequestHeaderProto.byteSize, setHeader, optionalField_some, int32Field, int64Field]
  omega

theorem ResponseHeader.byteSize_setHeader_le {header : ResponseHeader}
    (hmessage : header.message.length < 2 ^ 60) (hbaggage : header.baggage.length < 2 ^ 60) :
    header.setHeader.byteSize ≤ 48 + header.message.length + header.baggage.length := by
  have hrequest := integerField_le 1 (by decide) header.senderRequestId.toInt64.toUInt64
  have hstatus := integerField_le 2 (by decide) header.status.toInt64.toUInt64
  have hmessage := lengthField_le 3 (by decide) (Nat.lt_of_lt_of_le hmessage (by decide))
  have hbaggage := lengthField_le 4 (by decide) (Nat.lt_of_lt_of_le hbaggage (by decide))
  simp only [ResponseHeaderProto.byteSize, setHeader, optionalField_some, int32Field, int64Field]
  omega

/-- Sixteen integers. -/
theorem Telemetry.byteSize_setTelemetry_le (telemetry : Telemetry) :
    telemetry.setTelemetry.byteSize ≤ 192 := by
  have hfield : ∀ field, 8 * field + 2 < 128 * 128 → ∀ word : UInt64,
      int64Field field word.toInt64 ≤ 12 := fun field h word => integerField_le field h _
  have hsum : telemetry.setTelemetry.byteSize ≤
      12 + 12 + 12 + 12 + 12 + 12 + 12 + 12 + 12 + 12 + 12 + 12 + 12 + 12 + 12 + 12 := by
    unfold TelemetryProto.byteSize setTelemetry
    simp only [optionalField_some, optionalField_none, List.map_nil, List.sum_nil, Nat.add_zero]
    repeat' apply Nat.add_le_add
    all_goals exact hfield _ (by decide) _
  exact hsum

/-- The header and the telemetry of a request as fields. -/
theorem requestParts_le {header : RequestHeader} (telemetry : Telemetry)
    (h : header.baggage.length < 2 ^ 60) :
    lengthField 1 header.setHeader.byteSize +
      lengthField 2 telemetry.setTelemetry.byteSize ≤ 252 + header.baggage.length := by
  have hheader := header.byteSize_setHeader_le h
  have htelemetry := telemetry.byteSize_setTelemetry_le
  have hfirst := lengthField_le 1 (by decide)
    (show header.setHeader.byteSize < 2 ^ 63 by omega)
  have hsecond := lengthField_le 2 (by decide)
    (show telemetry.setTelemetry.byteSize < 2 ^ 63 by omega)
  omega

theorem RequestPublish.byteSize_set_le {request : RequestPublish}
    (hbaggage : request.header.baggage.length < 2 ^ 60)
    (hmessage : request.message.length < 2 ^ 60) :
    request.set.byteSize ≤ 300 + request.header.baggage.length + request.message.length := by
  have hparts := requestParts_le request.telemetry hbaggage
  have htime := integerField_le 3 (by decide) request.timestamp
  have htopic := integerField_le 4 (by decide) request.topicId
  have hglobal := integerField_le 5 (by decide) request.globalId
  have hmessage := lengthField_le 6 (by decide) (Nat.lt_of_lt_of_le hmessage (by decide))
  simp only [RequestPublishProto.byteSize, set, optionalField_some]
  omega

theorem RequestPrepare.byteSize_set_le {request : RequestPrepare}
    (hbaggage : request.header.baggage.length < 2 ^ 60)
    (hmessage : request.message.length < 2 ^ 60) :
    request.set.byteSize ≤ 300 + request.header.baggage.length + request.message.length := by
  have hparts := requestParts_le request.telemetry hbaggage
  have htime := integerField_le 3 (by decide) request.timestamp
  have hglobal := integerField_le 4 (by decide) request.globalId
  have htopic := integerField_le 5 (by decide) request.topicId
  have hmessage := lengthField_le 6 (by decide) (Nat.lt_of_lt_of_le hmessage (by decide))
  simp only [RequestPrepareProto.byteSize, set, optionalField_some]
  omega

theorem ResponsePrepare.byteSize_set_le {response : ResponsePrepare}
    (hmessage : response.header.message.length < 2 ^ 60)
    (hbaggage : response.header.baggage.length < 2 ^ 60) :
    response.set.byteSize ≤
      300 + response.header.message.length + response.header.baggage.length := by
  have hheader := response.header.byteSize_setHeader_le hmessage hbaggage
  have htelemetry := response.telemetry.byteSize_setTelemetry_le
  have hfirst := lengthField_le 1 (by decide)
    (show response.header.setHeader.byteSize < 2 ^ 63 by omega)
  have hsecond := lengthField_le 2 (by decide)
    (show response.telemetry.setTelemetry.byteSize < 2 ^ 63 by omega)
  have htime := integerField_le 3 (by decide) response.timestamp
  have hglobal := integerField_le 4 (by decide) response.globalId
  have htopic := integerField_le 5 (by decide) response.topicId
  simp only [ResponsePrepareProto.byteSize, set, optionalField_some]
  omega

theorem RequestUpdateSubscription.byteSize_setWithTelemetry_le
    {request : RequestUpdateSubscription} (h : request.header.baggage.length < 2 ^ 60) :
    request.setWithTelemetry.byteSize ≤ 300 + request.header.baggage.length := by
  have hparts := requestParts_le request.telemetry h
  have htime := integerField_le 3 (by decide) request.timestamp
  have htopic := integerField_le 4 (by decide) request.topicId
  have haction := integerField_le 5 (by decide) request.action.toUInt32.toUInt64
  simp only [RequestUpdateSubscriptionProto.byteSize, setWithTelemetry, optionalField_some]
  omega

/-- Without the telemetry it is no longer. -/
theorem RequestUpdateSubscription.byteSize_set_le
    {request : RequestUpdateSubscription} (h : request.header.baggage.length < 2 ^ 60) :
    request.set.byteSize ≤ 300 + request.header.baggage.length := by
  have hwith := request.byteSize_setWithTelemetry_le h
  have hless : request.set.byteSize ≤ request.setWithTelemetry.byteSize := by
    simp only [RequestUpdateSubscriptionProto.byteSize, set, setWithTelemetry,
      optionalField_some, optionalField_none]
    omega
  omega

end Firehose.Api
