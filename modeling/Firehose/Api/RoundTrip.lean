import Firehose.Api.Proto

set_option autoImplicit false

/-!
# What decoding makes of what was encoded

`set_telemetry` leaves out the pump's identifier, `get_telemetry` the time the nuzzle
received the message, and no decoder of an update request reads its telemetry.  So a
struct comes back as it was sent exactly when these fields hold what a new struct holds.
-/

namespace Firehose.Api

/-! ## Headers and telemetry -/

@[simp] theorem RequestHeader.getHeader_setHeader (header : RequestHeader) :
    header.setHeader.getHeader = header := by
  simp [setHeader, RequestHeaderProto.getHeader]

@[simp] theorem ResponseHeader.getHeader_setHeader (header : ResponseHeader) :
    header.setHeader.getHeader = header := by
  simp [setHeader, ResponseHeaderProto.getHeader]

@[simp] theorem telemetryField_some (value : UInt64) :
    telemetryField (some value.toInt64) = value := by
  simp [telemetryField]

/-- Two fields keep the value they have at the receiver. -/
theorem Telemetry.getTelemetry_setTelemetry (memory telemetry : Telemetry) :
    memory.getTelemetry telemetry.setTelemetry =
      { telemetry with
        pumpId := memory.pumpId
        nuzzleReceivedPublish := memory.nuzzleReceivedPublish } := by
  simp [getTelemetry, setTelemetry]

/-- Telemetry that the two forgetful functions carry over: the fields they leave out are
as in a new struct. -/
def Telemetry.Carried (telemetry : Telemetry) : Prop :=
  telemetry.pumpId = 0 ∧ telemetry.nuzzleReceivedPublish = 16

instance (telemetry : Telemetry) : Decidable telemetry.Carried :=
  inferInstanceAs (Decidable (_ ∧ _))

theorem decodedTelemetry_set_eq_iff (telemetry : Telemetry) :
    decodedTelemetry (some telemetry.setTelemetry) = telemetry ↔ telemetry.Carried := by
  unfold decodedTelemetry Telemetry.Carried
  rw [Option.getD_some, Telemetry.getTelemetry_setTelemetry, Telemetry.mk.injEq]
  simp only [true_and, and_true]
  exact and_congr eq_comm eq_comm

/-! ## The messages -/

/-- The ways of a struct from the component that encodes it to the one that decodes it. -/
inductive Route
  | publishToPump
  | publishToNuzzle
  | publishToConsumer
  | prepareToEngine
  | acceptToEngine
  | prepareAckToPump
  | publishAckToPublisher
  | updateToNuzzle
  | updateToEngine
  deriving DecidableEq

namespace Route

/-- The struct that is encoded. -/
abbrev Struct : Route → Type
  | publishToPump | publishToNuzzle | publishToConsumer => RequestPublish
  | prepareToEngine => RequestPrepare
  | acceptToEngine => RequestAccept
  | prepareAckToPump => ResponsePrepare
  | publishAckToPublisher => ResponsePublish
  | updateToNuzzle | updateToEngine => RequestUpdateSubscription

/-- The message that travels. -/
abbrev Wire : Route → Type
  | publishToPump | publishToNuzzle | publishToConsumer => RequestPublishProto
  | prepareToEngine => RequestPrepareProto
  | acceptToEngine => RequestAcceptProto
  | prepareAckToPump => ResponsePrepareProto
  | publishAckToPublisher => ResponsePublishProto
  | updateToNuzzle | updateToEngine => RequestUpdateSubscriptionProto

/-- The encoder at the one end. -/
def set : (route : Route) → route.Struct → route.Wire
  | publishToPump => Publisher.MsgPublishReqTx.set
  | publishToNuzzle => Engine.MsgPublishReqTx.set
  | publishToConsumer => Nuzzle.MsgPublishReqTx.set
  | prepareToEngine => Pump.MsgPrepareReqTx.set
  | acceptToEngine => Pump.MsgAcceptReqTx.set
  | prepareAckToPump => Engine.MsgPrepareRspTx.set
  | publishAckToPublisher => Pump.MsgPublishRspTx.set
  | updateToNuzzle => Consumer.MsgUpdateSubscriptionReqTx.set
  | updateToEngine => Nuzzle.MsgUpdateSubscriptionReqTx.set

/-- The decoder at the other end. -/
def get : (route : Route) → route.Wire → route.Struct
  | publishToPump => Pump.MsgPublishReqRx.get
  | publishToNuzzle => Nuzzle.MsgPublishReqRx.get
  | publishToConsumer => Consumer.MsgPublishReqRx.get
  | prepareToEngine => Engine.MsgPrepareReqRx.get
  | acceptToEngine => Engine.MsgAcceptReqRx.get
  | prepareAckToPump => Pump.MsgPrepareRspRx.get
  | publishAckToPublisher => Publisher.MsgPublishRspRx.get
  | updateToNuzzle => Nuzzle.MsgUpdateSubscriptionReqRx.get
  | updateToEngine => Engine.MsgUpdateSubscriptionReqRx.get

/-- Two structs agree on every field that the message on the route declares: all of them,
but for the payload of an accept, which has no counterpart. -/
def SameDeclared : (route : Route) → route.Struct → route.Struct → Prop
  | publishToPump, x, y | publishToNuzzle, x, y | publishToConsumer, x, y => x = y
  | prepareToEngine, x, y => x = y
  | acceptToEngine, x, y => { x with message := [] } = { y with message := [] }
  | prepareAckToPump, x, y => x = y
  | publishAckToPublisher, x, y => x = y
  | updateToNuzzle, x, y | updateToEngine, x, y => x = y

/-- The telemetry of the struct on a route. -/
def telemetry : (route : Route) → route.Struct → Telemetry
  | publishToPump, x | publishToNuzzle, x | publishToConsumer, x => RequestPublish.telemetry x
  | prepareToEngine, x => RequestPrepare.telemetry x
  | acceptToEngine, x => RequestAccept.telemetry x
  | prepareAckToPump, x => ResponsePrepare.telemetry x
  | publishAckToPublisher, x => ResponsePublish.telemetry x
  | updateToNuzzle, x | updateToEngine, x => RequestUpdateSubscription.telemetry x

/-- A struct whose telemetry the route does not lose: on the way of an update request that
of a new struct, on every other way one that the codec carries over. -/
def Keeps : (route : Route) → route.Struct → Prop
  | updateToNuzzle, x => telemetry updateToNuzzle x = Telemetry.declared default
  | updateToEngine, x => telemetry updateToEngine x = Telemetry.declared default
  | route, x => (route.telemetry x).Carried

theorem get_set_publish_eq_iff (x : RequestPublish) : x.set.get = x ↔ x.telemetry.Carried := by
  obtain ⟨header, telemetry, timestamp, globalId, topicId, message⟩ := x
  simp [RequestPublish.set, RequestPublishProto.get, decodedTelemetry_set_eq_iff]

theorem get_set_prepare_eq_iff (x : RequestPrepare) : x.set.get = x ↔ x.telemetry.Carried := by
  obtain ⟨header, telemetry, timestamp, globalId, topicId, message⟩ := x
  simp [RequestPrepare.set, RequestPrepareProto.get, decodedTelemetry_set_eq_iff]

theorem get_set_accept_eq_iff (x : RequestAccept) :
    { x.set.get with message := [] } = { x with message := [] } ↔ x.telemetry.Carried := by
  obtain ⟨header, telemetry, timestamp, topicId, globalId, message⟩ := x
  simp [RequestAccept.set, RequestAcceptProto.get, decodedTelemetry_set_eq_iff]

theorem get_set_prepareAck_eq_iff (x : ResponsePrepare) :
    x.set.get = x ↔ x.telemetry.Carried := by
  obtain ⟨header, telemetry, globalId, timestamp, topicId⟩ := x
  simp [ResponsePrepare.set, ResponsePrepareProto.get, decodedTelemetry_set_eq_iff]

theorem get_set_publishAck_eq_iff (x : ResponsePublish) :
    x.set.get = x ↔ x.telemetry.Carried := by
  obtain ⟨header, telemetry, globalId, topicId, timestamp⟩ := x
  simp [ResponsePublish.set, ResponsePublishProto.get, decodedTelemetry_set_eq_iff]

/-- Whether the telemetry is sent or not, the decoder of an update request drops it. -/
theorem get_setWithTelemetry_eq_iff (x : RequestUpdateSubscription) :
    x.setWithTelemetry.get = x ↔ x.telemetry = Telemetry.declared default := by
  obtain ⟨header, telemetry, timestamp, topicId, action⟩ := x
  simp [RequestUpdateSubscription.setWithTelemetry, RequestUpdateSubscriptionProto.get,
    eq_comm]

theorem get_set_update (x : RequestUpdateSubscription) :
    x.set.get = x.setWithTelemetry.get := rfl

/-- What is encoded comes back unchanged exactly when its telemetry is kept. -/
theorem get_set_sameDeclared_iff (route : Route) (x : route.Struct) :
    route.SameDeclared (route.get (route.set x)) x ↔ route.Keeps x := by
  cases route with
  | publishToPump | publishToNuzzle | publishToConsumer => exact get_set_publish_eq_iff x
  | prepareToEngine => exact get_set_prepare_eq_iff x
  | acceptToEngine => exact get_set_accept_eq_iff x
  | prepareAckToPump => exact get_set_prepareAck_eq_iff x
  | publishAckToPublisher => exact get_set_publishAck_eq_iff x
  | updateToNuzzle => exact get_setWithTelemetry_eq_iff x
  | updateToEngine =>
      show RequestUpdateSubscriptionProto.get (RequestUpdateSubscription.set x) = x ↔ _
      rw [get_set_update]
      exact get_setWithTelemetry_eq_iff x

/-- A publish that carries the identifier of a pump. -/
def publishFromPump : RequestPublish :=
  { (default : RequestPublish) with
    telemetry := { Telemetry.declared default with pumpId := 7 } }

/-- The identifier is lost on the way to the next component. -/
theorem publishFromPump_not_sameDeclared :
    ¬ ∀ (route : Route) (x : route.Struct), route.SameDeclared (route.get (route.set x)) x := by
  intro hclaim
  have hcarried := (get_set_publish_eq_iff publishFromPump).mp
    (hclaim publishToPump publishFromPump)
  exact absurd hcarried (by decide)

end Route

end Firehose.Api
