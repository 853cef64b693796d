import Firehose.Api.Proto

set_option autoImplicit false

/-!
# The pump (`pump.cpp`)

`E` is the type of the pump's connections to engines.
-/

namespace Firehose.Node

open Firehose.Api

variable {E : Type}

/-- The state of `class Pump` that its handlers read. -/
structure Pump (E : Type) where
  globalRequestIdSeed : UInt64
  engineConnections : List E

namespace Pump

/-- `Pump::Pump`. -/
def new : Pump E := ⟨0, []⟩

/-- The `RequestPrepare` that `Pump::on_publish_receive` fills in; `memory` is what the
local variable holds before. -/
def prepareOf (pump : Pump E) (memory : RequestPrepare) (request : RequestPublish) :
    RequestPrepare :=
  { RequestPrepare.declared memory with
    globalId := pump.globalRequestIdSeed
    topicId := request.topicId
    timestamp := request.timestamp
    message := request.message }

/-- `Pump::on_publish_receive`: number the publish and send the prepare on every engine
connection there is. -/
def onPublishReceive (pump : Pump E) (memory : RequestPrepare) (request : RequestPublish) :
    Pump E × List (E × RequestPrepare) :=
  ({ pump with globalRequestIdSeed := pump.globalRequestIdSeed + 1 },
    pump.engineConnections.map fun connection =>
      (connection, pump.prepareOf memory request))

/-- `Pump::on_prepare_ack_receive` does nothing. -/
def onPrepareAckReceive (pump : Pump E) (_response : ResponsePrepare) : Pump E := pump

/-- `Pump::connect_to_engine`. -/
def connectToEngine (pump : Pump E) (connection : E) : Pump E :=
  { pump with engineConnections := pump.engineConnections ++ [connection] }

end Pump

end Firehose.Node
