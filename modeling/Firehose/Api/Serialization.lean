import Firehose.Api.Proto
import Firehose.Foundation.WireFormat

set_option autoImplicit false

/-!
# The bytes of the messages of `firehose.proto`

The formats of the messages that the servers send, by the numbers and the types of their
fields.
-/

namespace Firehose.Api

open Firehose.Foundation

/-! ## Integers -/

def int64Item (number : Nat) (value : Int64) : List TaggedField := wordField number value.toUInt64

/-- An `int32` is sent with its sign extended to 64 bits. -/
def int32Item (number : Nat) (value : Int32) : List TaggedField := int64Item number value.toInt64

def int64? (number : Nat) (fields : List TaggedField) : Option Int64 :=
  (word? number fields).map UInt64.toInt64

def int32? (number : Nat) (fields : List TaggedField) : Option Int32 :=
  (int64? number fields).map Int64.toInt32

variable {number number' : Nat}

@[simp] theorem wordsAt_optionally_int64Item (o : Option Int64) :
    wordsAt number (optionally (int64Item number') o) =
      if number' = number then (o.map Int64.toUInt64).toList else [] :=
  wordsAt_optionally_map Int64.toUInt64 o

@[simp] theorem wordsAt_repeatedly_int64Item (l : List Int64) :
    wordsAt number (repeatedly (int64Item number') l) =
      if number' = number then l.map Int64.toUInt64 else [] :=
  wordsAt_repeatedly_map Int64.toUInt64 l

@[simp] theorem bytesAt_optionally_int64Item (o : Option Int64) :
    bytesAt number (optionally (int64Item number') o) = [] := by
  cases o <;> rfl

@[simp] theorem wordsAt_optionally_int32Item (o : Option Int32) :
    wordsAt number (optionally (int32Item number') o) =
      if number' = number then (o.map fun value => value.toInt64.toUInt64).toList else [] :=
  wordsAt_optionally_map (fun value : Int32 => value.toInt64.toUInt64) o

@[simp] theorem bytesAt_optionally_int32Item (o : Option Int32) :
    bytesAt number (optionally (int32Item number') o) = [] := by
  cases o <;> rfl

@[simp] theorem allNumbered_int32Item {value : Int32} :
    AllNumbered (int32Item number value) ↔ 0 < number ∧ number < 2 ^ 29 := allNumbered_wordField

@[simp] theorem allNumbered_int64Item {value : Int64} :
    AllNumbered (int64Item number value) ↔ 0 < number ∧ number < 2 ^ 29 := allNumbered_wordField

/-! ## The parts of messages -/

/-- `message TelemetryProto` -/
def TelemetryProto.format : Format TelemetryProto where
  fields m :=
    optionally (int64Item 1) m.publisherId ++ optionally (int64Item 2) m.topicId ++
    optionally (int64Item 3) m.globalId ++ optionally (int64Item 4) m.pumpId ++
    optionally (int64Item 5) m.nuzzleId ++ repeatedly (int64Item 6) m.engineIds ++
    optionally (int64Item 7) m.consumerId ++ optionally (int64Item 8) m.publisherSentPublish ++
    optionally (int64Item 9) m.pumpReceivedPublish ++ optionally (int64Item 10) m.pumpSentPrepare ++
    optionally (int64Item 11) m.engineReceivedPrepare ++
    optionally (int64Item 12) m.engineSentAccept ++
    optionally (int64Item 13) m.pumpReceivedAccept ++
    optionally (int64Item 14) m.publisherReceivedAck ++
    optionally (int64Item 15) m.engineSentToNuzzle ++
    optionally (int64Item 16) m.nuzzleReceivedPublish ++
    optionally (int64Item 17) m.nuzzleSentPublish ++
    optionally (int64Item 18) m.consumerReceivedPublish
  ofFields fields := some
    { publisherId := int64? 1 fields
      topicId := int64? 2 fields
      globalId := int64? 3 fields
      pumpId := int64? 4 fields
      nuzzleId := int64? 5 fields
      engineIds := (wordsAt 6 fields).map UInt64.toInt64
      consumerId := int64? 7 fields
      publisherSentPublish := int64? 8 fields
      pumpReceivedPublish := int64? 9 fields
      pumpSentPrepare := int64? 10 fields
      engineReceivedPrepare := int64? 11 fields
      engineSentAccept := int64? 12 fields
      pumpReceivedAccept := int64? 13 fields
      publisherReceivedAck := int64? 14 fields
      engineSentToNuzzle := int64? 15 fields
      nuzzleReceivedPublish := int64? 16 fields
      nuzzleSentPublish := int64? 17 fields
      consumerReceivedPublish := int64? 18 fields }
  numbered m := by
    simp [allNumbered_optionally, allNumbered_repeatedly]
  ofFields_fields m _ := by
    simp only [int64?, word?, wordsAt_append, wordsAt_optionally_int64Item,
      wordsAt_repeatedly_int64Item, Nat.reduceEqDiff, if_true, if_false, List.nil_append,
      List.append_nil, getLast?_toList, Option.map_map, Function.comp_def,
      Int64.toInt64_toUInt64, Option.map_id', List.map_map, List.map_id']

/-- `message RequestHeaderProto` -/
def RequestHeaderProto.format : Format RequestHeaderProto where
  fields m :=
    optionally (int32Item 1) m.senderId ++ optionally (int64Item 2) m.senderRequestId ++
    optionally (bytesField 3) m.baggage
  ofFields fields := some
    { senderId := int32? 1 fields
      senderRequestId := int64? 2 fields
      baggage := bytes? 3 fields }
  numbered m := by
    simp [allNumbered_optionally]
  ofFields_fields m _ := by
    simp [int32?, int64?, word?, bytes?, getLast?_toList, Function.comp_def]

/-- `message ResponseHeaderProto` -/
def ResponseHeaderProto.format : Format ResponseHeaderProto where
  fields m :=
    optionally (int64Item 1) m.senderRequestId ++ optionally (int32Item 2) m.status ++
    optionally (bytesField 3) m.message ++ optionally (bytesField 4) m.baggage
  ofFields fields := some
    { senderRequestId := int64? 1 fields
      status := int32? 2 fields
      message := bytes? 3 fields
      baggage := bytes? 4 fields }
  numbered m := by
    simp [allNumbered_optionally]
  ofFields_fields m _ := by
    simp [int32?, int64?, word?, bytes?, getLast?_toList, Function.comp_def]

/-! ## The messages -/

/-- `message RequestPublishProto` -/
def RequestPublishProto.format : Format RequestPublishProto where
  fields m :=
    RequestHeaderProto.format.field 1 m.header ++
    optionally (TelemetryProto.format.field 2) m.telemetry ++ wordField 3 m.timestamp ++
    wordField 4 m.topicId ++ optionally (wordField 5) m.globalId ++ bytesField 6 m.message
  ofFields fields := do
    let header ← RequestHeaderProto.format.required 1 fields
    let telemetry ← TelemetryProto.format.optional 2 fields
    let timestamp ← word? 3 fields
    let topicId ← word? 4 fields
    let message ← bytes? 6 fields
    some ⟨header, telemetry, timestamp, topicId, word? 5 fields, message⟩
  numbered m := by
    simp [allNumbered_optionally]
  ofFields_fields m h := by
    rw [Format.required_of_bytesAt (m := m.header) (by simp) h,
      Format.optional_of_bytesAt (o := m.telemetry) (by simp) h]
    simp [word?, bytes?, getLast?_toList]

/-- `message ResponsePublishProto` -/
def ResponsePublishProto.format : Format ResponsePublishProto where
  fields m :=
    ResponseHeaderProto.format.field 1 m.header ++
    optionally (TelemetryProto.format.field 2) m.telemetry ++ wordField 3 m.timestamp ++
    wordField 4 m.topicId ++ optionally (wordField 5) m.globalId
  ofFields fields := do
    let header ← ResponseHeaderProto.format.required 1 fields
    let telemetry ← TelemetryProto.format.optional 2 fields
    let timestamp ← word? 3 fields
    let topicId ← word? 4 fields
    some ⟨header, telemetry, timestamp, topicId, word? 5 fields⟩
  numbered m := by
    simp [allNumbered_optionally]
  ofFields_fields m h := by
    rw [Format.required_of_bytesAt (m := m.header) (by simp) h,
      Format.optional_of_bytesAt (o := m.telemetry) (by simp) h]
    simp [word?, getLast?_toList]

/-- `message RequestPrepareProto` -/
def RequestPrepareProto.format : Format RequestPrepareProto where
  fields m :=
    RequestHeaderProto.format.field 1 m.header ++
    optionally (TelemetryProto.format.field 2) m.telemetry ++ wordField 3 m.timestamp ++
    wordField 4 m.globalId ++ wordField 5 m.topicId ++ bytesField 6 m.message
  ofFields fields := do
    let header ← RequestHeaderProto.format.required 1 fields
    let telemetry ← TelemetryProto.format.optional 2 fields
    let timestamp ← word? 3 fields
    let globalId ← word? 4 fields
    let topicId ← word? 5 fields
    let message ← bytes? 6 fields
    some ⟨header, telemetry, timestamp, globalId, topicId, message⟩
  numbered m := by
    simp [allNumbered_optionally]
  ofFields_fields m h := by
    rw [Format.required_of_bytesAt (m := m.header) (by simp) h,
      Format.optional_of_bytesAt (o := m.telemetry) (by simp) h]
    simp [word?, bytes?]

/-- `message ResponsePrepareProto` -/
def ResponsePrepareProto.format : Format ResponsePrepareProto where
  fields m :=
    ResponseHeaderProto.format.field 1 m.header ++
    optionally (TelemetryProto.format.field 2) m.telemetry ++ wordField 3 m.timestamp ++
    wordField 4 m.globalId ++ wordField 5 m.topicId
  ofFields fields := do
    let header ← ResponseHeaderProto.format.required 1 fields
    let telemetry ← TelemetryProto.format.optional 2 fields
    let timestamp ← word? 3 fields
    let globalId ← word? 4 fields
    let topicId ← word? 5 fields
    some ⟨header, telemetry, timestamp, globalId, topicId⟩
  numbered m := by
    simp [allNumbered_optionally]
  ofFields_fields m h := by
    rw [Format.required_of_bytesAt (m := m.header) (by simp) h,
      Format.optional_of_bytesAt (o := m.telemetry) (by simp) h]
    simp [word?]

/-- `message RequestAcceptProto` -/
def RequestAcceptProto.format : Format RequestAcceptProto where
  fields m :=
    RequestHeaderProto.format.field 1 m.header ++
    optionally (TelemetryProto.format.field 2) m.telemetry ++ wordField 3 m.timestamp ++
    wordField 4 m.globalId ++ wordField 5 m.topicId
  ofFields fields := do
    let header ← RequestHeaderProto.format.required 1 fields
    let telemetry ← TelemetryProto.format.optional 2 fields
    let timestamp ← word? 3 fields
    let globalId ← word? 4 fields
    let topicId ← word? 5 fields
    some ⟨header, telemetry, timestamp, globalId, topicId⟩
  numbered m := by
    simp [allNumbered_optionally]
  ofFields_fields m h := by
    rw [Format.required_of_bytesAt (m := m.header) (by simp) h,
      Format.optional_of_bytesAt (o := m.telemetry) (by simp) h]
    simp [word?]

/-- `message RequestUpdateSubscriptionProto` -/
def RequestUpdateSubscriptionProto.format : Format RequestUpdateSubscriptionProto where
  fields m :=
    RequestHeaderProto.format.field 1 m.header ++
    optionally (TelemetryProto.format.field 2) m.telemetry ++ wordField 3 m.timestamp ++
    wordField 4 m.topicId ++ wordField 5 m.action.toUInt64
  ofFields fields := do
    let header ← RequestHeaderProto.format.required 1 fields
    let telemetry ← TelemetryProto.format.optional 2 fields
    let timestamp ← word? 3 fields
    let topicId ← word? 4 fields
    let action ← word? 5 fields
    some ⟨header, telemetry, timestamp, topicId, action.toUInt32⟩
  numbered m := by
    simp [allNumbered_optionally]
  ofFields_fields m h := by
    rw [Format.required_of_bytesAt (m := m.header) (by simp) h,
      Format.optional_of_bytesAt (o := m.telemetry) (by simp) h]
    simp [word?]

end Firehose.Api
