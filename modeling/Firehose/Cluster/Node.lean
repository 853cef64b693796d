import Firehose.Foundation.Channel
import Firehose.Foundation.Run
import Firehose.Node.Engine
import Firehose.Node.Nuzzle
import Firehose.Node.Pump

set_option autoImplicit false

/-!
# One server by itself

A pump, an engine or a nuzzle with the history of its channels: what it has taken off
each incoming channel and what it has pushed on each outgoing one.  Nothing is assumed
about the peers, so a run of one of these machines is any order of connections and
requests at that server.
-/

namespace Firehose.Cluster

open Firehose.Api Firehose.Foundation Firehose.Node
open Function (update)
open Channel (addressedTo)

/-! ## The pump -/

/-- A pump and the prepares it has pushed on each engine connection. -/
structure PumpNode (E : Type) where
  pump : Pump E
  prepares : E → List RequestPrepareProto

inductive PumpEvent (E : Type)
  | connect (e : E)
  | publish (memory : RequestPrepare) (m : RequestPublishProto)

namespace PumpNode

variable {E : Type}

def start : PumpNode E := ⟨.new, fun _ => []⟩

def next [DecidableEq E] (node : PumpNode E) : PumpEvent E → Option (PumpNode E)
  | .connect e =>
      if e ∈ node.pump.engineConnections then none
      else some { node with pump := node.pump.connectToEngine e }
  | .publish memory m =>
      let r := node.pump.onPublishReceive memory (Pump.MsgPublishReqRx.get m)
      some {
        pump := r.1
        prepares := fun e => node.prepares e ++
          addressedTo e (r.2.map fun o => (o.1, Pump.MsgPrepareReqTx.set o.2)) }

end PumpNode

/-! ## The engine -/

/-- An engine, the requests it has handled on each connection, and what it has pushed on
each connection. -/
structure EngineNode (P N : Type) where
  engine : Engine N
  prepares : P → List RequestPrepareProto
  updates : N → List RequestUpdateSubscriptionProto
  acks : P → List ResponsePrepareProto
  fanouts : N → List RequestPublishProto

inductive EngineEvent (P N : Type)
  | prepare (p : P) (ackMemory : ResponsePrepare) (publishMemory : RequestPublish)
      (m : RequestPrepareProto)
  | accept (p : P) (request : RequestAccept)
  | update (n : N) (m : RequestUpdateSubscriptionProto)

/-- The prepare that is handled. -/
def EngineEvent.prepared {P N : Type} : EngineEvent P N → Option RequestPrepareProto
  | .prepare _ _ _ m => some m
  | _ => none

/-- The update that is handled. -/
def EngineEvent.updated {P N : Type} : EngineEvent P N → Option RequestUpdateSubscriptionProto
  | .update _ m => some m
  | _ => none

namespace EngineNode

variable {P N : Type}

def start : EngineNode P N := ⟨.new, fun _ => [], fun _ => [], fun _ => [], fun _ => []⟩

variable [DecidableEq P] [DecidableEq N]

def next (node : EngineNode P N) : EngineEvent P N → Option (EngineNode P N)
  | .prepare p ackMemory publishMemory m =>
      let r := node.engine.onPrepareReceive ackMemory publishMemory p
        (Engine.MsgPrepareReqRx.get m)
      some { node with
        engine := r.1
        prepares := update node.prepares p (node.prepares p ++ [m])
        acks := fun p' => node.acks p' ++
          addressedTo p' (r.2.1.map fun o => (o.1, Engine.MsgPrepareRspTx.set o.2))
        fanouts := fun n => node.fanouts n ++
          addressedTo n (r.2.2.map fun o => (o.1, Engine.MsgPublishReqTx.set o.2)) }
  | .accept p request => some { node with engine := node.engine.onAcceptReceive p request }
  | .update n m =>
      match node.engine.onUpdateSubscriptionReceive n
          (Engine.MsgUpdateSubscriptionReqRx.get m) with
      | none => none
      | some engine =>
          some { node with
            engine := engine
            updates := update node.updates n (node.updates n ++ [m]) }

end EngineNode

/-! ## The nuzzle -/

/-- A nuzzle, the copies it has handled from each engine, and what it has pushed on each
connection. -/
structure NuzzleNode (E C : Type) where
  nuzzle : Nuzzle E C
  fanouts : E → List RequestPublishProto
  updates : E → List RequestUpdateSubscriptionProto
  deliveries : C → List RequestPublishProto

inductive NuzzleEvent (E C : Type)
  | connect (e : E)
  | publish (e : E) (m : RequestPublishProto)
  | update (c : C) (memory : E → RequestUpdateSubscription)
      (m : RequestUpdateSubscriptionProto)

/-- The engine that is connected to. -/
def NuzzleEvent.connected {E C : Type} : NuzzleEvent E C → Option E
  | .connect e => some e
  | _ => none

/-- The copy that is handled. -/
def NuzzleEvent.published {E C : Type} : NuzzleEvent E C → Option RequestPublishProto
  | .publish _ m => some m
  | _ => none

/-- The update that is handled and whom it comes from. -/
def NuzzleEvent.updated {E C : Type} :
    NuzzleEvent E C → Option (C × RequestUpdateSubscriptionProto)
  | .update c _ m => some (c, m)
  | _ => none

namespace NuzzleNode

variable {E C : Type}

def start (groupSize : UInt16) : NuzzleNode E C :=
  ⟨.new groupSize, fun _ => [], fun _ => [], fun _ => []⟩

variable [DecidableEq E] [DecidableEq C]

def next (node : NuzzleNode E C) : NuzzleEvent E C → Option (NuzzleNode E C)
  | .connect e =>
      if e ∈ node.nuzzle.engineConnections then none
      else some { node with nuzzle := node.nuzzle.connectToEngine e }
  | .publish e m =>
      let r := node.nuzzle.onPublishReceive e (Nuzzle.MsgPublishReqRx.get m)
      some { node with
        nuzzle := r.1
        fanouts := update node.fanouts e (node.fanouts e ++ [m])
        deliveries := fun c => node.deliveries c ++
          addressedTo c (r.2.map fun o => (o.1, Nuzzle.MsgPublishReqTx.set o.2)) }
  | .update c memory m =>
      match node.nuzzle.onUpdateSubscriptionReceive memory c
          (Nuzzle.MsgUpdateSubscriptionReqRx.get m) with
      | none => none
      | some (nuzzle, out) =>
          some { node with
            nuzzle := nuzzle
            updates := fun e => node.updates e ++
              addressedTo e (out.map fun o => (o.1, Nuzzle.MsgUpdateSubscriptionReqTx.set o.2)) }

end NuzzleNode

end Firehose.Cluster
