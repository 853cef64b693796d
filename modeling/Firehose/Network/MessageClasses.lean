import Firehose.Api.SerializedSize
import Firehose.Network.Framing

set_option autoImplicit false

/-!
# Message classes and connections (`message.h`, `*_api.cpp`)

A message class of a sending connection serialises a wire message into its header and has no
body.  A receiving connection makes an object of one of its classes for the type in the
pre-header, has it parse the header, and hands the completed object to the handler for its
class.
-/

namespace Firehose.Network

open Firehose.Api Firehose.Foundation

/-! ## Message classes -/

/-- What the message classes are named after. -/
inductive MessageClass
  | publishReq
  | publishRsp
  | prepareReq
  | prepareRsp
  | acceptReq
  | updateSubscriptionReq
  deriving DecidableEq

namespace MessageClass

/-- The template argument `TMsg`. -/
abbrev Proto : MessageClass → Type
  | publishReq => RequestPublishProto
  | publishRsp => ResponsePublishProto
  | prepareReq => RequestPrepareProto
  | prepareRsp => ResponsePrepareProto
  | acceptReq => RequestAcceptProto
  | updateSubscriptionReq => RequestUpdateSubscriptionProto

/-- The template argument `TMsgType`, a value of `enum RequestType`. -/
def msgType : MessageClass → UInt64
  | publishReq => 3
  | publishRsp => 4
  | prepareReq => 9
  | prepareRsp => 10
  | acceptReq => 7
  | updateSubscriptionReq => 11

theorem msgType_injective : Function.Injective msgType := by
  intro cls cls' h
  cases cls <;> cases cls' <;> first | rfl | exact absurd h (by decide)

end MessageClass

/-! ## Serialisation -/

/-- `SerializeWithCachedSizesToArray` and `ParseFromArray` of a wire message: parsing gives
back what was serialised into a header buffer. -/
structure Codec (M : Type) where
  serialize : M → Bytes
  parse : Bytes → Option M
  parse_serialize : ∀ m, (serialize m).length ≤ maxHeaderLen → parse (serialize m) = some m

/-- The serialisation library, for every message class. -/
abbrev Protobuf := (cls : MessageClass) → Codec cls.Proto

theorem maxHeaderLen_lt : maxHeaderLen < 2 ^ 64 := by decide

/-- The codec of a format. -/
def Codec.ofFormat {M : Type} (format : Format M) : Codec M where
  serialize := format.serialize
  parse := format.parse
  parse_serialize := fun _ h => format.parse_serialize (lt_of_le_of_lt h maxHeaderLen_lt)

/-- The library by the formats of `firehose.proto`. -/
def protobuf : Protobuf
  | .publishReq => .ofFormat RequestPublishProto.format
  | .publishRsp => .ofFormat ResponsePublishProto.format
  | .prepareReq => .ofFormat RequestPrepareProto.format
  | .prepareRsp => .ofFormat ResponsePrepareProto.format
  | .acceptReq => .ofFormat RequestAcceptProto.format
  | .updateSubscriptionReq => .ofFormat RequestUpdateSubscriptionProto.format

/-- `ByteSizeLong`, which is `get_tx_header_len` -/
def MessageClass.byteSize : (cls : MessageClass) → cls.Proto → Nat
  | publishReq => RequestPublishProto.byteSize
  | publishRsp => ResponsePublishProto.byteSize
  | prepareReq => RequestPrepareProto.byteSize
  | prepareRsp => ResponsePrepareProto.byteSize
  | acceptReq => RequestAcceptProto.byteSize
  | updateSubscriptionReq => RequestUpdateSubscriptionProto.byteSize

/-- `serialize_tx_header` writes as many bytes as `get_tx_header_len` announces, where the
buffer holds them. -/
def Protobuf.Exact (proto : Protobuf) : Prop :=
  ∀ cls m, cls.byteSize m ≤ maxHeaderLen → ((proto cls).serialize m).length = cls.byteSize m

theorem length_serialize {cls : MessageClass} {m : cls.Proto} (h : cls.byteSize m < 2 ^ 64) :
    ((protobuf cls).serialize m).length = cls.byteSize m := by
  cases cls with
  | publishReq => exact RequestPublishProto.length_serialize m h
  | publishRsp => exact ResponsePublishProto.length_serialize m h
  | prepareReq => exact RequestPrepareProto.length_serialize m h
  | prepareRsp => exact ResponsePrepareProto.length_serialize m h
  | acceptReq => exact RequestAcceptProto.length_serialize m h
  | updateSubscriptionReq => exact RequestUpdateSubscriptionProto.length_serialize m h

theorem protobuf_exact : Protobuf.Exact protobuf :=
  fun _ _ h => length_serialize (lt_of_le_of_lt h maxHeaderLen_lt)

/-- A `msg_protobuf_tx` with its message set; `req_id_` is not initialised. -/
def MessageClass.tx (proto : Protobuf) (cls : MessageClass) (reqId : UInt64) (m : cls.Proto) :
    MessageTx := ⟨cls.msgType, reqId, (proto cls).serialize m, 0, []⟩

/-! ## Receiving connections -/

/-- The `new_rx_message` of a connection, by the classes that it makes objects of; there is
no object for another type. -/
def newRxMessage (taken : List MessageClass) (msgType : UInt64) : Option MessageClass :=
  taken.find? fun cls => decide (cls.msgType = msgType)

/-- The classes of `pump::PublisherConnection::new_rx_message` -/
def Pump.PublisherConnection.taken : List MessageClass := [.publishReq]

/-- The classes of `pump::EngineConnection::new_rx_message` -/
def Pump.EngineConnection.taken : List MessageClass := [.prepareRsp]

/-- The classes of `engine::PumpConnection::new_rx_message` -/
def Engine.PumpConnection.taken : List MessageClass := [.prepareReq, .acceptReq]

/-- The classes of `engine::NuzzleConnection::new_rx_message` -/
def Engine.NuzzleConnection.taken : List MessageClass := [.updateSubscriptionReq]

/-- The classes of `nuzzle::EngineConnection::new_rx_message` -/
def Nuzzle.EngineConnection.taken : List MessageClass := [.publishReq]

/-- The classes of `nuzzle::ConsumerConnection::new_rx_message` -/
def Nuzzle.ConsumerConnection.taken : List MessageClass := [.publishRsp, .updateSubscriptionReq]

/-- The classes of `consumer::NuzzleConnection::new_rx_message` -/
def Consumer.NuzzleConnection.taken : List MessageClass := [.publishReq]

/-- A connection as a `message_handler`, with the virtual functions of its `msg_protobuf_rx`
objects.  `header_received` is called on an object only, so it has a class. -/
def messageHandler (proto : Protobuf) (taken : List MessageClass) : MessageHandler where
  newRxMessage := fun _ _ msgType _ => (newRxMessage taken msgType).isSome
  headerReceived := fun r header =>
    match newRxMessage taken r.msgType with
    | none => .ok ()
    | some cls => if ((proto cls).parse header).isSome then .ok () else .error "parsing failed"
  nextBodyRxBuf := fun _ => .error "Should not be called"
  bodyBufReceived := fun _ _ => .error "Should not be called"

/-- What `completed_receive` finds when it casts a message to a class. -/
def received (proto : Protobuf) (taken : List MessageClass) (cls : MessageClass)
    (contents : UInt64 × UInt64 × Bytes × Bytes) : Option cls.Proto :=
  if newRxMessage taken contents.1 = some cls then (proto cls).parse contents.2.2.1 else none

section Taken

variable {proto : Protobuf} {taken : List MessageClass} {cls : MessageClass} {reqId : UInt64}
variable {m : cls.Proto}

theorem newRxMessage_msgType (hmem : cls ∈ taken) :
    newRxMessage taken cls.msgType = some cls := by
  unfold newRxMessage
  cases hfind : taken.find? fun cls' => decide (cls'.msgType = cls.msgType) with
  | none =>
      have hnone := List.find?_eq_none.mp hfind cls hmem
      simp at hnone
  | some cls' =>
      have hsame := List.find?_some hfind
      rw [MessageClass.msgType_injective (of_decide_eq_true hsame)]

/-- A message that fits into a header buffer is well formed. -/
theorem wellFormed_tx (hfits : ((proto cls).serialize m).length ≤ maxHeaderLen) :
    (cls.tx proto reqId m).WellFormed := ⟨hfits, rfl⟩

/-- What has been serialised tells which message it was. -/
theorem tx_inj {reqId' : UInt64} {m' : cls.Proto}
    (hfits : ((proto cls).serialize m).length ≤ maxHeaderLen)
    (h : cls.tx proto reqId m = cls.tx proto reqId' m') : m = m' := by
  have hheader : (proto cls).serialize m = (proto cls).serialize m' :=
    congrArg MessageTx.header h
  have hparse := (proto cls).parse_serialize m hfits
  rw [hheader, (proto cls).parse_serialize m' (hheader ▸ hfits)] at hparse
  exact (Option.some.inj hparse).symm

/-- A connection accepts the messages of its classes. -/
theorem accepts_tx (hmem : cls ∈ taken)
    (hfits : ((proto cls).serialize m).length ≤ maxHeaderLen) :
    (messageHandler proto taken).Accepts (cls.tx proto reqId m) where
  newRxMessage := by
    simp only [messageHandler, MessageClass.tx, newRxMessage_msgType hmem, Option.isSome_some]
  headerReceived := by
    simp only [messageHandler, MessageRx.new, MessageClass.tx, newRxMessage_msgType hmem,
      (proto cls).parse_serialize m hfits, Option.isSome_some, if_true]
  bodyBuf := by
    intro r hpartial
    exact absurd hpartial.body (Nat.not_lt_zero _)

/-- The handler for a class gets the wire message that was sent. -/
theorem received_tx (hmem : cls ∈ taken)
    (hfits : ((proto cls).serialize m).length ≤ maxHeaderLen) :
    received proto taken cls (cls.tx proto reqId m).contents = some m := by
  simp only [received, MessageTx.contents, MessageClass.tx, newRxMessage_msgType hmem, if_true,
    (proto cls).parse_serialize m hfits]

end Taken

end Firehose.Network
