import Firehose.Api.Message

set_option autoImplicit false

/-!
# Wire messages (`firehose.proto`) and their codecs (`api_common.cpp`)

A wire message is the value its generated class holds.  An `optional` field is an
`Option`; its accessor returns the default of the type when the field is absent.
Serialising a message and parsing the bytes is taken to give the message back, so
what travels on a connection is the message itself.

Each connection class encodes with its own `set` and decodes with its own `get`.
They assign the same fields, in an order that does not matter, so the family is
defined here once; the class's own `set` or `get` is that definition.
-/

namespace Firehose.Api

/-- `message TelemetryProto`. -/
structure TelemetryProto where
  publisherId : Option Int64
  topicId : Option Int64
  globalId : Option Int64
  pumpId : Option Int64
  nuzzleId : Option Int64
  engineIds : List Int64
  consumerId : Option Int64
  publisherSentPublish : Option Int64
  pumpReceivedPublish : Option Int64
  pumpSentPrepare : Option Int64
  engineReceivedPrepare : Option Int64
  engineSentAccept : Option Int64
  pumpReceivedAccept : Option Int64
  publisherReceivedAck : Option Int64
  engineSentToNuzzle : Option Int64
  nuzzleReceivedPublish : Option Int64
  nuzzleSentPublish : Option Int64
  consumerReceivedPublish : Option Int64
  deriving DecidableEq, Inhabited

/-- `message RequestHeaderProto`. -/
structure RequestHeaderProto where
  senderId : Option Int32
  senderRequestId : Option Int64
  baggage : Option Bytes
  deriving DecidableEq, Inhabited

/-- `message ResponseHeaderProto`. -/
structure ResponseHeaderProto where
  senderRequestId : Option Int64
  status : Option Int32
  message : Option Bytes
  baggage : Option Bytes
  deriving DecidableEq, Inhabited

/-- `message RequestPublishProto`. -/
structure RequestPublishProto where
  header : RequestHeaderProto
  telemetry : Option TelemetryProto
  timestamp : UInt64
  topicId : UInt64
  globalId : Option UInt64
  message : Bytes
  deriving DecidableEq, Inhabited

/-- `message RequestPrepareProto`. -/
structure RequestPrepareProto where
  header : RequestHeaderProto
  telemetry : Option TelemetryProto
  timestamp : UInt64
  globalId : UInt64
  topicId : UInt64
  message : Bytes
  deriving DecidableEq, Inhabited

/-- `message ResponsePrepareProto`. -/
structure ResponsePrepareProto where
  header : ResponseHeaderProto
  telemetry : Option TelemetryProto
  timestamp : UInt64
  globalId : UInt64
  topicId : UInt64
  deriving DecidableEq, Inhabited

/-- `message RequestAcceptProto`. -/
structure RequestAcceptProto where
  header : RequestHeaderProto
  telemetry : Option TelemetryProto
  timestamp : UInt64
  globalId : UInt64
  topicId : UInt64
  deriving DecidableEq, Inhabited

/-- `message ResponsePublishProto`. -/
structure ResponsePublishProto where
  header : ResponseHeaderProto
  telemetry : Option TelemetryProto
  timestamp : UInt64
  topicId : UInt64
  globalId : Option UInt64
  deriving DecidableEq, Inhabited

/-- `message RequestUpdateSubscriptionProto`. -/
structure RequestUpdateSubscriptionProto where
  header : RequestHeaderProto
  telemetry : Option TelemetryProto
  timestamp : UInt64
  topicId : UInt64
  action : UInt32
  deriving DecidableEq, Inhabited

/-- `message ResponseUpdateSubscriptionProto`. -/
structure ResponseUpdateSubscriptionProto where
  header : ResponseHeaderProto
  telemetry : Option TelemetryProto
  timestamp : UInt64
  topicId : UInt64
  action : UInt32
  deriving DecidableEq, Inhabited

/-! ## Headers and telemetry -/

/-- `set_header` of a request. -/
def RequestHeader.setHeader (header : RequestHeader) : RequestHeaderProto where
  senderId := some header.senderId
  senderRequestId := some header.senderRequestId.toInt64
  baggage := some header.baggage

/-- `get_header` of a request. -/
def RequestHeaderProto.getHeader (proto : RequestHeaderProto) : RequestHeader where
  senderId := proto.senderId.getD 0
  senderRequestId := (proto.senderRequestId.getD 0).toInt32
  baggage := proto.baggage.getD []

/-- `set_header` of a response. -/
def ResponseHeader.setHeader (header : ResponseHeader) : ResponseHeaderProto where
  senderRequestId := some header.senderRequestId.toInt64
  status := some header.status
  message := some header.message
  baggage := some header.baggage

/-- `get_header` of a response. -/
def ResponseHeaderProto.getHeader (proto : ResponseHeaderProto) : ResponseHeader where
  senderRequestId := (proto.senderRequestId.getD 0).toInt32
  status := proto.status.getD 0
  message := proto.message.getD []
  baggage := proto.baggage.getD []

/-- `set_telemetry`: the pump's identifier is not among the fields it sets. -/
def Telemetry.setTelemetry (telemetry : Telemetry) : TelemetryProto where
  publisherId := some telemetry.publisherId.toInt64
  topicId := some telemetry.topicId.toInt64
  globalId := some telemetry.globalId.toInt64
  pumpId := none
  nuzzleId := some telemetry.nuzzleId.toInt64
  engineIds := []
  consumerId := some telemetry.consumerId.toInt64
  publisherSentPublish := some telemetry.publisherSentPublish.toInt64
  pumpReceivedPublish := some telemetry.pumpReceivedPublish.toInt64
  pumpSentPrepare := some telemetry.pumpSentPrepare.toInt64
  engineReceivedPrepare := some telemetry.engineReceivedPrepare.toInt64
  engineSentAccept := some telemetry.engineSentAccept.toInt64
  pumpReceivedAccept := some telemetry.pumpReceivedAccept.toInt64
  publisherReceivedAck := some telemetry.publisherReceivedAck.toInt64
  engineSentToNuzzle := some telemetry.engineSentToNuzzle.toInt64
  nuzzleReceivedPublish := some telemetry.nuzzleReceivedPublish.toInt64
  nuzzleSentPublish := some telemetry.nuzzleSentPublish.toInt64
  consumerReceivedPublish := some telemetry.consumerReceivedPublish.toInt64

/-- An `optional int64` of a telemetry message, read into a `uint64_t`. -/
def telemetryField (field : Option Int64) : UInt64 := (field.getD 0).toUInt64

/-- `get_telemetry` into `telemetry`: the pump's identifier and the time the nuzzle
received the message are not among the fields it assigns. -/
def Telemetry.getTelemetry (telemetry : Telemetry) (proto : TelemetryProto) : Telemetry :=
  { telemetry with
    publisherId := telemetryField proto.publisherId
    globalId := telemetryField proto.globalId
    topicId := telemetryField proto.topicId
    nuzzleId := telemetryField proto.nuzzleId
    consumerId := telemetryField proto.consumerId
    publisherSentPublish := telemetryField proto.publisherSentPublish
    pumpReceivedPublish := telemetryField proto.pumpReceivedPublish
    pumpSentPrepare := telemetryField proto.pumpSentPrepare
    engineReceivedPrepare := telemetryField proto.engineReceivedPrepare
    engineSentAccept := telemetryField proto.engineSentAccept
    pumpReceivedAccept := telemetryField proto.pumpReceivedAccept
    publisherReceivedAck := telemetryField proto.publisherReceivedAck
    engineSentToNuzzle := telemetryField proto.engineSentToNuzzle
    nuzzleSentPublish := telemetryField proto.nuzzleSentPublish
    consumerReceivedPublish := telemetryField proto.consumerReceivedPublish }

/-- The telemetry every decoder starts from: that of a struct made by
`std::make_shared`. -/
def decodedTelemetry (proto : Option TelemetryProto) : Telemetry :=
  (Telemetry.declared default).getTelemetry (proto.getD default)

/-! ## The codec families -/

/-- The `set` of every `msg_publish_req_tx`. -/
def RequestPublish.set (request : RequestPublish) : RequestPublishProto where
  header := request.header.setHeader
  telemetry := some request.telemetry.setTelemetry
  timestamp := request.timestamp
  topicId := request.topicId
  globalId := some request.globalId
  message := request.message

/-- The `get` of every `msg_publish_req_rx`. -/
def RequestPublishProto.get (msg : RequestPublishProto) : RequestPublish where
  header := msg.header.getHeader
  telemetry := decodedTelemetry msg.telemetry
  timestamp := msg.timestamp
  globalId := msg.globalId.getD 0
  topicId := msg.topicId
  message := msg.message

/-- `pump::msg_prepare_req_tx::set`. -/
def RequestPrepare.set (request : RequestPrepare) : RequestPrepareProto where
  header := request.header.setHeader
  telemetry := some request.telemetry.setTelemetry
  timestamp := request.timestamp
  globalId := request.globalId
  topicId := request.topicId
  message := request.message

/-- `engine::msg_prepare_req_rx::get`. -/
def RequestPrepareProto.get (msg : RequestPrepareProto) : RequestPrepare where
  header := msg.header.getHeader
  telemetry := decodedTelemetry msg.telemetry
  timestamp := msg.timestamp
  globalId := msg.globalId
  topicId := msg.topicId
  message := msg.message

/-- `engine::msg_prepare_rsp_tx::set`. -/
def ResponsePrepare.set (response : ResponsePrepare) : ResponsePrepareProto where
  header := response.header.setHeader
  telemetry := some response.telemetry.setTelemetry
  timestamp := response.timestamp
  globalId := response.globalId
  topicId := response.topicId

/-- `pump::msg_prepare_rsp_rx::get`. -/
def ResponsePrepareProto.get (msg : ResponsePrepareProto) : ResponsePrepare where
  header := msg.header.getHeader
  telemetry := decodedTelemetry msg.telemetry
  globalId := msg.globalId
  timestamp := msg.timestamp
  topicId := msg.topicId

/-- `pump::msg_accept_req_tx::set`; the wire message has no field for the payload. -/
def RequestAccept.set (request : RequestAccept) : RequestAcceptProto where
  header := request.header.setHeader
  telemetry := some request.telemetry.setTelemetry
  timestamp := request.timestamp
  globalId := request.globalId
  topicId := request.topicId

/-- `engine::msg_accept_req_rx::get`. -/
def RequestAcceptProto.get (msg : RequestAcceptProto) : RequestAccept where
  header := msg.header.getHeader
  telemetry := decodedTelemetry msg.telemetry
  timestamp := msg.timestamp
  topicId := msg.topicId
  globalId := msg.globalId
  message := []

/-- The `set` of every `msg_publish_rsp_tx`. -/
def ResponsePublish.set (response : ResponsePublish) : ResponsePublishProto where
  header := response.header.setHeader
  telemetry := some response.telemetry.setTelemetry
  timestamp := response.timestamp
  topicId := response.topicId
  globalId := some response.globalId

/-- The `get` of every `msg_publish_rsp_rx`. -/
def ResponsePublishProto.get (msg : ResponsePublishProto) : ResponsePublish where
  header := msg.header.getHeader
  telemetry := decodedTelemetry msg.telemetry
  globalId := msg.globalId.getD 0
  topicId := msg.topicId
  timestamp := msg.timestamp

/-- `consumer::msg_update_subscription_req_tx::set`. -/
def RequestUpdateSubscription.setWithTelemetry (request : RequestUpdateSubscription) :
    RequestUpdateSubscriptionProto where
  header := request.header.setHeader
  telemetry := some request.telemetry.setTelemetry
  timestamp := request.timestamp
  topicId := request.topicId
  action := request.action.toUInt32

/-- `nuzzle::msg_update_subscription_req_tx::set`, which leaves the telemetry out. -/
def RequestUpdateSubscription.set (request : RequestUpdateSubscription) :
    RequestUpdateSubscriptionProto :=
  { request.setWithTelemetry with telemetry := none }

/-- The `get` of every `msg_update_subscription_req_rx`; no one of them reads the
telemetry. -/
def RequestUpdateSubscriptionProto.get (msg : RequestUpdateSubscriptionProto) :
    RequestUpdateSubscription where
  header := msg.header.getHeader
  telemetry := Telemetry.declared default
  timestamp := msg.timestamp
  topicId := msg.topicId
  action := msg.action.toUInt8

/-- `nuzzle::msg_update_subscription_rsp_tx::set`, which leaves the telemetry out. -/
def ResponseUpdateSubscription.set (response : ResponseUpdateSubscription) :
    ResponseUpdateSubscriptionProto where
  header := response.header.setHeader
  telemetry := none
  timestamp := response.timestamp
  topicId := response.topicId
  action := response.action.toUInt32

/-- `nuzzle::msg_update_subscription_rsp_rx::get`, which does not read the telemetry. -/
def ResponseUpdateSubscriptionProto.get (msg : ResponseUpdateSubscriptionProto) :
    ResponseUpdateSubscription where
  header := msg.header.getHeader
  telemetry := Telemetry.declared default
  timestamp := msg.timestamp
  topicId := msg.topicId
  action := msg.action.toUInt8

/-! ## The message classes

Every class of `publisher_api.cpp`, `pump_api.cpp`, `engine_api.cpp`,
`nuzzle_api.cpp` and `consumer_api.cpp` on the way of a message or of a
subscription. -/

abbrev Publisher.MsgPublishReqTx.set := RequestPublish.set
abbrev Publisher.MsgPublishRspRx.get := ResponsePublishProto.get
abbrev Pump.MsgPublishReqRx.get := RequestPublishProto.get
abbrev Pump.MsgPublishRspTx.set := ResponsePublish.set
abbrev Pump.MsgAcceptReqTx.set := RequestAccept.set
abbrev Pump.MsgPrepareReqTx.set := RequestPrepare.set
abbrev Pump.MsgPrepareRspRx.get := ResponsePrepareProto.get
abbrev Engine.MsgPrepareReqRx.get := RequestPrepareProto.get
abbrev Engine.MsgAcceptReqRx.get := RequestAcceptProto.get
abbrev Engine.MsgPrepareRspTx.set := ResponsePrepare.set
abbrev Engine.MsgPublishReqTx.set := RequestPublish.set
abbrev Engine.MsgUpdateSubscriptionReqRx.get := RequestUpdateSubscriptionProto.get
abbrev Nuzzle.MsgPublishReqRx.get := RequestPublishProto.get
abbrev Nuzzle.MsgPublishReqTx.set := RequestPublish.set
abbrev Nuzzle.MsgUpdateSubscriptionReqRx.get := RequestUpdateSubscriptionProto.get
abbrev Nuzzle.MsgUpdateSubscriptionReqTx.set := RequestUpdateSubscription.set
abbrev Nuzzle.MsgPublishRspTx.set := ResponsePublish.set
abbrev Nuzzle.MsgPublishRspRx.get := ResponsePublishProto.get
abbrev Nuzzle.MsgUpdateSubscriptionRspTx.set := ResponseUpdateSubscription.set
abbrev Nuzzle.MsgUpdateSubscriptionRspRx.get := ResponseUpdateSubscriptionProto.get
abbrev Consumer.MsgPublishReqRx.get := RequestPublishProto.get
abbrev Consumer.MsgPublishRspTx.set := ResponsePublish.set
abbrev Consumer.MsgUpdateSubscriptionReqTx.set := RequestUpdateSubscription.setWithTelemetry

/-! ## What a codec preserves -/

def RequestPublishProto.key (msg : RequestPublishProto) : Key := msg.get.key

def RequestPublishProto.content (msg : RequestPublishProto) : Content := msg.get.content

def RequestPrepareProto.key (msg : RequestPrepareProto) : Key := msg.get.key

def RequestPrepareProto.content (msg : RequestPrepareProto) : Content := msg.get.content

@[simp] theorem RequestPublish.key_set (request : RequestPublish) :
    request.set.key = request.key := rfl

@[simp] theorem RequestPublish.content_set (request : RequestPublish) :
    request.set.content = request.content := rfl

@[simp] theorem RequestPrepare.key_set (request : RequestPrepare) :
    request.set.key = request.key := rfl

@[simp] theorem RequestPrepare.content_set (request : RequestPrepare) :
    request.set.content = request.content := rfl

/-- A key and a content are all that the relayed copies of a message share. -/
theorem RequestPublishProto.content_topicId (msg : RequestPublishProto) :
    msg.content.topicId = msg.key.1 := rfl

theorem RequestPrepareProto.content_topicId (msg : RequestPrepareProto) :
    msg.content.topicId = msg.key.1 := rfl

@[simp] theorem RequestUpdateSubscription.get_set_topicId
    (request : RequestUpdateSubscription) : request.set.get.topicId = request.topicId := rfl

@[simp] theorem RequestUpdateSubscription.get_set_isSubscribe
    (request : RequestUpdateSubscription) :
    request.set.get.isSubscribe = request.isSubscribe := by
  simp [isSubscribe, set, setWithTelemetry, RequestUpdateSubscriptionProto.get]

end Firehose.Api
