set_option autoImplicit false

/-!
# Requests and responses (`api_common.h`)

The structs every component passes around.  Machine integers keep the widths of
the source.  A `std::string` is the list of its bytes.

A struct declared as a local variable is default-initialised: its strings are
empty and its fields with an initialiser in the class have that value, but every
other field holds whatever was in memory.  `declared memory` is the struct in
that state.  A struct made by `std::make_shared` is zeroed first, which is
`declared default`.
-/

namespace Firehose.Api

/-- The bytes of a `std::string`. -/
abbrev Bytes := List UInt8

/-- `firehoseSuccess`. -/
def firehoseSuccess : Int32 := 0

/-- `struct Telemetry`. -/
structure Telemetry where
  publisherId : UInt64
  topicId : UInt64
  globalId : UInt64
  pumpId : UInt64
  nuzzleId : UInt64
  consumerId : UInt64
  publisherSentPublish : UInt64
  pumpReceivedPublish : UInt64
  pumpSentPrepare : UInt64
  engineReceivedPrepare : UInt64
  engineSentAccept : UInt64
  pumpReceivedAccept : UInt64
  publisherReceivedAck : UInt64
  engineSentToNuzzle : UInt64
  nuzzleReceivedPublish : UInt64
  nuzzleSentPublish : UInt64
  consumerReceivedPublish : UInt64
  deriving DecidableEq, Repr, Inhabited

/-- A `Telemetry` as its in-class initialisers leave it. -/
def Telemetry.declared (memory : Telemetry) : Telemetry :=
  { memory with
    publisherSentPublish := 8
    pumpReceivedPublish := 9
    pumpSentPrepare := 10
    engineReceivedPrepare := 11
    engineSentAccept := 12
    pumpReceivedAccept := 13
    publisherReceivedAck := 14
    engineSentToNuzzle := 15
    nuzzleReceivedPublish := 16
    nuzzleSentPublish := 17
    consumerReceivedPublish := 18 }

/-- `struct RequestHeader`. -/
structure RequestHeader where
  senderId : Int32
  senderRequestId : Int32
  baggage : Bytes
  deriving DecidableEq, Repr, Inhabited

def RequestHeader.declared (memory : RequestHeader) : RequestHeader :=
  { memory with baggage := [] }

/-- `struct ResponseHeader`. -/
structure ResponseHeader where
  senderRequestId : Int32
  status : Int32
  message : Bytes
  baggage : Bytes
  deriving DecidableEq, Repr, Inhabited

def ResponseHeader.declared (memory : ResponseHeader) : ResponseHeader :=
  { memory with message := [], baggage := [] }

/-- `struct RequestPublish`. -/
structure RequestPublish where
  header : RequestHeader
  telemetry : Telemetry
  timestamp : UInt64
  globalId : UInt64
  topicId : UInt64
  message : Bytes
  deriving DecidableEq, Repr, Inhabited

/-- A request of which only the topic and the payload are filled in. -/
def RequestPublish.on (topic : UInt64) (message : Bytes) : RequestPublish :=
  { (default : RequestPublish) with topicId := topic, message := message }

def RequestPublish.declared (memory : RequestPublish) : RequestPublish :=
  { memory with
    header := memory.header.declared
    telemetry := memory.telemetry.declared
    message := [] }

/-- `struct RequestPrepare`. -/
structure RequestPrepare where
  header : RequestHeader
  telemetry : Telemetry
  timestamp : UInt64
  globalId : UInt64
  topicId : UInt64
  message : Bytes
  deriving DecidableEq, Repr, Inhabited

def RequestPrepare.declared (memory : RequestPrepare) : RequestPrepare :=
  { memory with
    header := memory.header.declared
    telemetry := memory.telemetry.declared
    message := [] }

/-- `struct ResponsePrepare`. -/
structure ResponsePrepare where
  header : ResponseHeader
  telemetry : Telemetry
  globalId : UInt64
  timestamp : UInt64
  topicId : UInt64
  deriving DecidableEq, Repr, Inhabited

def ResponsePrepare.declared (memory : ResponsePrepare) : ResponsePrepare :=
  { memory with
    header := memory.header.declared
    telemetry := memory.telemetry.declared }

/-- `struct ResponsePublish`. -/
structure ResponsePublish where
  header : ResponseHeader
  telemetry : Telemetry
  globalId : UInt64
  topicId : UInt64
  timestamp : UInt64
  deriving DecidableEq, Repr, Inhabited

/-- `struct RequestAccept`. -/
structure RequestAccept where
  header : RequestHeader
  telemetry : Telemetry
  timestamp : UInt64
  topicId : UInt64
  globalId : UInt64
  message : Bytes
  deriving DecidableEq, Repr, Inhabited

/-- `struct RequestUpdateSubscription`. -/
structure RequestUpdateSubscription where
  header : RequestHeader
  telemetry : Telemetry
  timestamp : UInt64
  topicId : UInt64
  action : UInt8
  deriving DecidableEq, Repr, Inhabited

/-- A request of which only the topic and the action are filled in. -/
def RequestUpdateSubscription.on (topic : UInt64) (action : UInt8) :
    RequestUpdateSubscription :=
  { (default : RequestUpdateSubscription) with topicId := topic, action := action }

def RequestUpdateSubscription.declared (memory : RequestUpdateSubscription) :
    RequestUpdateSubscription :=
  { memory with
    header := memory.header.declared
    telemetry := memory.telemetry.declared }

/-- `struct ResponseUpdateSubscription`. -/
structure ResponseUpdateSubscription where
  header : ResponseHeader
  telemetry : Telemetry
  timestamp : UInt64
  topicId : UInt64
  action : UInt8
  deriving DecidableEq, Repr, Inhabited

/-- A request is a subscribe exactly when its action is 1; any other action
unsubscribes. -/
def RequestUpdateSubscription.isSubscribe (request : RequestUpdateSubscription) : Bool :=
  request.action == 1

/-! ## Identity and content of a message

The two message buffers are keyed by `std::pair` of the topic and the global
identifier. -/

/-- The key of a message in a message buffer. -/
abbrev Key := UInt64 × UInt64

def RequestPublish.key (request : RequestPublish) : Key := (request.topicId, request.globalId)

def RequestPrepare.key (request : RequestPrepare) : Key := (request.topicId, request.globalId)

/-- What a message says: its topic, the time it was published and its payload. -/
structure Content where
  topicId : UInt64
  timestamp : UInt64
  message : Bytes
  deriving DecidableEq, Repr

def RequestPublish.content (request : RequestPublish) : Content :=
  ⟨request.topicId, request.timestamp, request.message⟩

def RequestPrepare.content (request : RequestPrepare) : Content :=
  ⟨request.topicId, request.timestamp, request.message⟩

end Firehose.Api
