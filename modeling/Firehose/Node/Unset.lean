import Firehose.Node.Engine
import Firehose.Node.Nuzzle
import Firehose.Node.Pump

set_option autoImplicit false

/-!
# Fields that nobody sets

A handler that relays a message declares a struct, assigns some of its fields and encodes
all of them.  What two executions of a handler put on the wire can then differ only in
the fields that neither an initialiser nor an assignment sets, and in the `req_id_` of the
messages; here is which of them the encoders send.
-/

namespace Firehose.Api

theorem Int32.toInt64_inj {a b : Int32} : a.toInt64 = b.toInt64 ↔ a = b :=
  ⟨fun h => by simpa using congrArg Int64.toInt32 h, congrArg _⟩

theorem UInt64.toInt64_inj {a b : UInt64} : a.toInt64 = b.toInt64 ↔ a = b :=
  ⟨fun h => by simpa using congrArg Int64.toUInt64 h, congrArg _⟩

/-- Two request headers hold the same identifiers. -/
def RequestHeader.SameIds (header header' : RequestHeader) : Prop :=
  header.senderId = header'.senderId ∧ header.senderRequestId = header'.senderRequestId

/-- Two telemetries hold the same identifiers, the pump's left out: the encoder does not
send that one. -/
def Telemetry.SameIds (telemetry telemetry' : Telemetry) : Prop :=
  telemetry.publisherId = telemetry'.publisherId ∧ telemetry.topicId = telemetry'.topicId ∧
    telemetry.globalId = telemetry'.globalId ∧ telemetry.nuzzleId = telemetry'.nuzzleId ∧
    telemetry.consumerId = telemetry'.consumerId

theorem RequestHeader.setHeader_declared_inj {header header' : RequestHeader} :
    header.declared.setHeader = header'.declared.setHeader ↔ header.SameIds header' := by
  simp [setHeader, declared, SameIds, Int32.toInt64_inj]

theorem ResponseHeader.setHeader_declared_inj {header header' : ResponseHeader} (status : Int32) :
    setHeader { header.declared with status := status } =
        setHeader { header'.declared with status := status } ↔
      header.senderRequestId = header'.senderRequestId := by
  simp [setHeader, declared, Int32.toInt64_inj]

theorem Telemetry.setTelemetry_declared_inj {telemetry telemetry' : Telemetry} :
    telemetry.declared.setTelemetry = telemetry'.declared.setTelemetry ↔
      telemetry.SameIds telemetry' := by
  simp [setTelemetry, declared, SameIds, UInt64.toInt64_inj]

end Firehose.Api

namespace Firehose.Node

open Firehose.Api

/-! ## Messages as they leave -/

/-- A message as it leaves: the `req_id_` of its object and the encoded struct. -/
structure Sent (M : Type) where
  reqId : UInt64
  msg : M
  deriving DecidableEq

/-- The messages of an output list, each with the `req_id_` of an object of its own. -/
def packed {B M : Type} (reqIds : Nat → UInt64) (out : List (B × M)) : List (B × Sent M) :=
  out.mapIdx fun i o => (o.1, ⟨reqIds i, o.2⟩)

theorem packed_map_inj {B M : Type} {reqIds reqIds' : Nat → UInt64} {peers : List B}
    {f f' : B → M} :
    packed reqIds (peers.map fun b => (b, f b)) =
        packed reqIds' (peers.map fun b => (b, f' b)) ↔
      (∀ i < peers.length, reqIds i = reqIds' i) ∧ ∀ b ∈ peers, f b = f' b := by
  induction peers generalizing reqIds reqIds' with
  | nil => simp [packed]
  | cons b rest ih =>
      unfold packed at ih ⊢
      simp only [List.map_cons, List.mapIdx_cons, List.cons.injEq, Prod.mk.injEq, true_and,
        Sent.mk.injEq, ih, List.length_cons, List.forall_mem_cons]
      constructor
      · rintro ⟨⟨hid, hf⟩, hids, hrest⟩
        refine ⟨fun i hi => ?_, hf, hrest⟩
        cases i with
        | zero => exact hid
        | succ i => exact hids i (by omega)
      · rintro ⟨hids, hf, hrest⟩
        exact ⟨⟨hids 0 (by omega), hf⟩, fun i hi => hids (i + 1) (by omega), hrest⟩

/-- The same message to every peer. -/
theorem packed_map_const_inj {B M : Type} {reqIds reqIds' : Nat → UInt64} {peers : List B}
    {m m' : M} :
    packed reqIds (peers.map fun b => (b, m)) = packed reqIds' (peers.map fun b => (b, m')) ↔
      (∀ i < peers.length, reqIds i = reqIds' i) ∧ (peers = [] ∨ m = m') := by
  refine packed_map_inj.trans (and_congr_right fun _ => ?_)
  cases peers with
  | nil => simp
  | cons b rest => exact ⟨fun h => Or.inr (h b (by simp)), fun h _ _ => by simpa using h⟩

/-! ## The pump -/

namespace Pump

variable {E : Type}

/-- What `Pump::on_publish_receive` puts on the wire. -/
def wires (pump : Pump E) (memory : RequestPrepare) (reqIds : Nat → UInt64)
    (request : RequestPublish) : List (E × Sent RequestPrepareProto) :=
  packed reqIds ((pump.onPublishReceive memory request).2.map fun o =>
    (o.1, Pump.MsgPrepareReqTx.set o.2))

theorem set_prepareOf_inj {pump : Pump E} {memory memory' : RequestPrepare}
    {request : RequestPublish} :
    (pump.prepareOf memory request).set = (pump.prepareOf memory' request).set ↔
      memory.header.SameIds memory'.header ∧ memory.telemetry.SameIds memory'.telemetry := by
  simp only [RequestPrepare.set, prepareOf, RequestPrepare.declared, RequestPrepareProto.mk.injEq,
    RequestHeader.setHeader_declared_inj, Telemetry.setTelemetry_declared_inj,
    Option.some.injEq, and_true]

/-- Two executions find the same in every field that is sent without having been set. -/
def FindsSame (pump : Pump E) (memory memory' : RequestPrepare)
    (reqIds reqIds' : Nat → UInt64) : Prop :=
  (∀ i < pump.engineConnections.length, reqIds i = reqIds' i) ∧
    (pump.engineConnections = [] ∨
      memory.header.SameIds memory'.header ∧ memory.telemetry.SameIds memory'.telemetry)

theorem wires_inj {pump : Pump E} {memory memory' : RequestPrepare}
    {reqIds reqIds' : Nat → UInt64} {request : RequestPublish} :
    pump.wires memory reqIds request = pump.wires memory' reqIds' request ↔
      pump.FindsSame memory memory' reqIds reqIds' := by
  simp only [wires, FindsSame, onPublishReceive, List.map_map, Function.comp_def]
  rw [packed_map_const_inj, set_prepareOf_inj]

end Pump

/-! ## The engine -/

namespace Engine

variable {P N : Type}

/-- What `Engine::on_prepare_receive` puts on the wire: one acknowledgement, and a copy for
each entry of the topic. -/
def wires (engine : Engine N) (ackMemory : ResponsePrepare) (publishMemory : RequestPublish)
    (ackIds publishIds : Nat → UInt64) (connection : P) (request : RequestPrepare) :
    List (P × Sent ResponsePrepareProto) × List (N × Sent RequestPublishProto) :=
  let r := engine.onPrepareReceive ackMemory publishMemory connection request
  (packed ackIds (r.2.1.map fun o => (o.1, Engine.MsgPrepareRspTx.set o.2)),
    packed publishIds (r.2.2.map fun o => (o.1, Engine.MsgPublishReqTx.set o.2)))

theorem set_prepareAck_inj {memory memory' : ResponsePrepare} {request : RequestPrepare} :
    (prepareAck memory request).set = (prepareAck memory' request).set ↔
      memory.header.senderRequestId = memory'.header.senderRequestId ∧
      memory.telemetry.SameIds memory'.telemetry ∧ memory.timestamp = memory'.timestamp := by
  simp only [ResponsePrepare.set, prepareAck, ResponsePrepare.declared,
    ResponsePrepareProto.mk.injEq, ResponseHeader.setHeader_declared_inj,
    Telemetry.setTelemetry_declared_inj, Option.some.injEq, and_true]

theorem set_publishOf_inj {memory memory' : RequestPublish} {request : RequestPrepare} :
    (publishOf memory request).set = (publishOf memory' request).set ↔
      memory.header.SameIds memory'.header ∧ memory.telemetry.SameIds memory'.telemetry := by
  simp only [RequestPublish.set, publishOf, RequestPublish.declared, RequestPublishProto.mk.injEq,
    RequestHeader.setHeader_declared_inj, Telemetry.setTelemetry_declared_inj,
    Option.some.injEq, and_true]

/-- Two executions find the same in every field that is sent without having been set.  The
acknowledgement is sent in any case. -/
def FindsSame (engine : Engine N) (topic : UInt64) (ackMemory ackMemory' : ResponsePrepare)
    (publishMemory publishMemory' : RequestPublish)
    (ackIds ackIds' publishIds publishIds' : Nat → UInt64) : Prop :=
  (ackIds 0 = ackIds' 0 ∧
    ackMemory.header.senderRequestId = ackMemory'.header.senderRequestId ∧
    ackMemory.telemetry.SameIds ackMemory'.telemetry ∧
    ackMemory.timestamp = ackMemory'.timestamp) ∧
  (∀ i < (engine.subscriptions.get topic).length, publishIds i = publishIds' i) ∧
  (engine.subscriptions.get topic = [] ∨
    publishMemory.header.SameIds publishMemory'.header ∧
      publishMemory.telemetry.SameIds publishMemory'.telemetry)

theorem wires_inj {engine : Engine N} {ackMemory ackMemory' : ResponsePrepare}
    {publishMemory publishMemory' : RequestPublish}
    {ackIds ackIds' publishIds publishIds' : Nat → UInt64} {connection : P}
    {request : RequestPrepare} :
    engine.wires ackMemory publishMemory ackIds publishIds connection request =
        engine.wires ackMemory' publishMemory' ackIds' publishIds' connection request ↔
      engine.FindsSame request.topicId ackMemory ackMemory' publishMemory publishMemory'
        ackIds ackIds' publishIds publishIds' := by
  simp only [wires, FindsSame, onPrepareReceive, List.map_map, Function.comp_def, Prod.mk.injEq]
  rw [packed_map_const_inj, set_publishOf_inj]
  refine and_congr_left fun _ => ?_
  simp [packed, set_prepareAck_inj]

end Engine

/-! ## The nuzzle -/

namespace Nuzzle

variable {E C : Type} [DecidableEq C]

/-- What `Nuzzle::on_update_subscription_receive` puts on the wire. -/
def wires (nuzzle : Nuzzle E C) (memory : E → RequestUpdateSubscription)
    (reqIds : Nat → UInt64) (connection : C) (request : RequestUpdateSubscription) :
    Option (List (E × Sent RequestUpdateSubscriptionProto)) :=
  (nuzzle.onUpdateSubscriptionReceive memory connection request).map fun r =>
    packed reqIds (r.2.map fun o => (o.1, Nuzzle.MsgUpdateSubscriptionReqTx.set o.2))

/-- A request that the nuzzle can carry out: an unsubscribe needs an entry. -/
def Accepts (nuzzle : Nuzzle E C) (connection : C) (request : RequestUpdateSubscription) : Prop :=
  request.isSubscribe = true ∨ connection ∈ nuzzle.subscriptions.get request.topicId

theorem set_forward_inj {memory memory' : RequestUpdateSubscription} {topic : UInt64}
    {action : UInt8} :
    RequestUpdateSubscription.set
          { memory.declared with topicId := topic, action := action } =
        RequestUpdateSubscription.set
          { memory'.declared with topicId := topic, action := action } ↔
      memory.header.SameIds memory'.header ∧ memory.timestamp = memory'.timestamp := by
  simp only [RequestUpdateSubscription.set, RequestUpdateSubscription.setWithTelemetry,
    RequestUpdateSubscription.declared, RequestUpdateSubscriptionProto.mk.injEq,
    RequestHeader.setHeader_declared_inj, and_true, true_and]

omit [DecidableEq C] in
theorem packed_forward_inj {nuzzle : Nuzzle E C} {memory memory' : E → RequestUpdateSubscription}
    {reqIds reqIds' : Nat → UInt64} {topic : UInt64} {action : UInt8} :
    packed reqIds ((nuzzle.forward memory topic action).map fun o =>
          (o.1, Nuzzle.MsgUpdateSubscriptionReqTx.set o.2)) =
        packed reqIds' ((nuzzle.forward memory' topic action).map fun o =>
          (o.1, Nuzzle.MsgUpdateSubscriptionReqTx.set o.2)) ↔
      (∀ i < nuzzle.engineConnections.length, reqIds i = reqIds' i) ∧
      ∀ e ∈ nuzzle.engineConnections, (memory e).header.SameIds (memory' e).header ∧
        (memory e).timestamp = (memory' e).timestamp := by
  simp only [forward, List.map_map, Function.comp_def]
  rw [packed_map_inj]
  simp only [set_forward_inj]

/-- Two executions find the same in every field that is sent without having been set. -/
def FindsSame (nuzzle : Nuzzle E C) (memory memory' : E → RequestUpdateSubscription)
    (reqIds reqIds' : Nat → UInt64) : Prop :=
  (∀ i < nuzzle.engineConnections.length, reqIds i = reqIds' i) ∧
    ∀ e ∈ nuzzle.engineConnections, (memory e).header.SameIds (memory' e).header ∧
      (memory e).timestamp = (memory' e).timestamp

theorem wires_inj {nuzzle : Nuzzle E C} {memory memory' : E → RequestUpdateSubscription}
    {reqIds reqIds' : Nat → UInt64} {connection : C} {request : RequestUpdateSubscription} :
    nuzzle.wires memory reqIds connection request =
        nuzzle.wires memory' reqIds' connection request ↔
      (nuzzle.Accepts connection request →
        nuzzle.FindsSame memory memory' reqIds reqIds') := by
  unfold wires Accepts FindsSame onUpdateSubscriptionReceive
  by_cases hsub : request.isSubscribe = true
  · simp only [hsub, if_true, Option.map_some, Option.some.injEq, true_or, true_implies]
    exact packed_forward_inj
  · by_cases hmem : connection ∈ nuzzle.subscriptions.get request.topicId
    · simp only [hsub, Bool.false_eq_true, if_false, hmem, if_true, Option.map_some,
        Option.some.injEq, or_true, true_implies]
      exact packed_forward_inj
    · simp [hsub, hmem]

end Nuzzle

end Firehose.Node
