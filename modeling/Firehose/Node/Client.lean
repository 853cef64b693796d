import Firehose.Api.Proto

set_option autoImplicit false

/-!
# The clients (`publisher.cpp`, `consumer.cpp`)

`P` is the type of a publisher's connections to pumps, `N` that of a consumer's
connections to nuzzles.
-/

namespace Firehose.Node

open Firehose.Api

/-- The state of `class Publisher`. -/
structure Publisher (P : Type) where
  pumpConnections : List P
  pumpIndex : Int32

namespace Publisher

variable {P : Type}

/-- `Publisher::Publisher`. -/
def new : Publisher P := ⟨[], 0⟩

/-- `Publisher::connect_to_pump`. -/
def connectToPump (publisher : Publisher P) (connection : P) : Publisher P :=
  { publisher with pumpConnections := publisher.pumpConnections ++ [connection] }

/-- `Publisher::publish`: stamp the request, send it to the pump at the index and move the
index on.  An index outside the list is undefined behaviour, and then there is no
result. -/
def publish (publisher : Publisher P) (now : UInt64) (request : RequestPublish) :
    Option (Publisher P × P × RequestPublish) :=
  let size := UInt64.ofNat publisher.pumpConnections.length
  match publisher.pumpConnections[publisher.pumpIndex.toInt64.toUInt64.toNat]? with
  | none => none
  | some connection =>
      some ({ publisher with
          pumpIndex := ((publisher.pumpIndex + 1).toInt64.toUInt64 % size).toInt64.toInt32 },
        connection, { request with timestamp := now })

end Publisher

/-- The state of `class Consumer`. -/
structure Consumer (N : Type) where
  nuzzleConnection : Option N
  logBuffer : List String

namespace Consumer

variable {N : Type}

/-- `Consumer::Consumer`. -/
def new : Consumer N := ⟨none, []⟩

/-- `Consumer::connect_to_nuzzle` keeps the last connection only. -/
def connectToNuzzle (consumer : Consumer N) (connection : N) : Consumer N :=
  { consumer with nuzzleConnection := some connection }

/-- `Consumer::update_subscribtion`: without a connection the pointer is not initialised,
and then there is no result. -/
def updateSubscribtion (consumer : Consumer N) (request : RequestUpdateSubscription) :
    Option (N × RequestUpdateSubscription) :=
  consumer.nuzzleConnection.map fun connection => (connection, request)

/-- The line `Consumer::on_publish_receive` logs; the clock is read twice. -/
def logLine (now now' : UInt64) (request : RequestPublish) : String :=
  toString now ++ "," ++ toString request.topicId ++ "," ++ toString request.globalId ++ "," ++
    toString (now' - request.timestamp)

/-- `Consumer::on_publish_receive`. -/
def onPublishReceive (consumer : Consumer N) (now now' : UInt64) (request : RequestPublish) :
    Consumer N :=
  { consumer with logBuffer := consumer.logBuffer ++ [logLine now now' request] }

end Consumer

end Firehose.Node
