import Firehose.Cluster.Forwarding
import Firehose.Cluster.Integrity
import Firehose.Cluster.Replication
import Firehose.Foundation.Lockstep

set_option autoImplicit false

/-!
# What the rest of a message does

A message carries a header, a telemetry record and an identifier that the publisher makes
up, and the local structs of the servers add what was in memory.  None of it reaches a
consumer's log or steers a server: two executions that agree on topics, payloads, actions
and clocks do the same, and their messages have the same keys and contents.
-/

namespace Firehose.Cluster

open Firehose.Api Firehose.Foundation Firehose.Node
open Function (update)
open Channel (Related SamePeer addressedTo)

/-! ## Messages that say the same -/

/-- A message of a publisher says the same; its identifier is not part of that. -/
def SameContent (m m' : RequestPublishProto) : Prop := m.content = m'.content

/-- A relayed message is the same and says the same. -/
def SameMessage (m m' : RequestPublishProto) : Prop := m.key = m'.key ∧ m.content = m'.content

/-- A nuzzle hands on what it received. -/
theorem SameMessage.delivered {m m' : RequestPublishProto} (h : SameMessage m m') :
    SameMessage (Nuzzle.MsgPublishReqTx.set (Nuzzle.MsgPublishReqRx.get m))
      (Nuzzle.MsgPublishReqTx.set (Nuzzle.MsgPublishReqRx.get m')) := by
  obtain ⟨hkey, hcontent⟩ := h
  constructor
  · rw [RequestPublish.key_set, RequestPublish.key_set]
    exact hkey
  · rw [RequestPublish.content_set, RequestPublish.content_set]
    exact hcontent

def SamePrepare (m m' : RequestPrepareProto) : Prop := m.key = m'.key ∧ m.content = m'.content

/-- A request of a consumer asks for the same. -/
def SameRequest (m m' : RequestUpdateSubscriptionProto) : Prop :=
  m.get.topicId = m'.get.topicId ∧ m.get.isSubscribe = m'.get.isSubscribe

/-- Two actions that differ at most in what is not part of a message's content: headers,
telemetry and identifiers of requests, and what the local structs of the servers held, the
client identifier that a nuzzle forwards apart. -/
inductive ActsAlike {B P E N C : Type} : Action B P E N C → Action B P E N C → Prop
  | connectToPump (b : B) (p : P) : ActsAlike (.connectToPump b p) (.connectToPump b p)
  | pumpConnectToEngine (p : P) (e : E) :
      ActsAlike (.pumpConnectToEngine p e) (.pumpConnectToEngine p e)
  | nuzzleConnectToEngine (n : N) (e : E) :
      ActsAlike (.nuzzleConnectToEngine n e) (.nuzzleConnectToEngine n e)
  | connectToNuzzle (c : C) (n : N) : ActsAlike (.connectToNuzzle c n) (.connectToNuzzle c n)
  | publish (b : B) (now : UInt64) {request request' : RequestPublish}
      (htopic : request.topicId = request'.topicId)
      (hmessage : request.message = request'.message) :
      ActsAlike (.publish b now request) (.publish b now request')
  | updateSubscribtion (c : C) {request request' : RequestUpdateSubscription}
      (htopic : request.topicId = request'.topicId)
      (haction : request.action = request'.action) :
      ActsAlike (.updateSubscribtion c request) (.updateSubscribtion c request')
  | pumpOnPublish (b : B) (p : P) (memory memory' : RequestPrepare) :
      ActsAlike (.pumpOnPublish b p memory) (.pumpOnPublish b p memory')
  | pumpOnPrepareAck (e : E) (p : P) : ActsAlike (.pumpOnPrepareAck e p) (.pumpOnPrepareAck e p)
  | engineOnPrepare (p : P) (e : E) (ackMemory ackMemory' : ResponsePrepare)
      (publishMemory publishMemory' : RequestPublish) :
      ActsAlike (.engineOnPrepare p e ackMemory publishMemory)
        (.engineOnPrepare p e ackMemory' publishMemory')
  | engineOnUpdate (n : N) (e : E) : ActsAlike (.engineOnUpdate n e) (.engineOnUpdate n e)
  | nuzzleOnPublish (e : E) (n : N) : ActsAlike (.nuzzleOnPublish e n) (.nuzzleOnPublish e n)
  | nuzzleOnUpdate (c : C) (n : N) {memory memory' : E → RequestUpdateSubscription}
      (hclients : ∀ e, (memory e).header.senderId = (memory' e).header.senderId) :
      ActsAlike (.nuzzleOnUpdate c n memory) (.nuzzleOnUpdate c n memory')
  | consumerOnPublish (n : N) (c : C) (now now' : UInt64) :
      ActsAlike (.consumerOnPublish n c now now') (.consumerOnPublish n c now now')

/-! ## The engine -/

/-- Two engines with the same subscriptions that hold the same under every key. -/
structure SameEngine {N : Type} (engine engine' : Engine N) : Prop where
  subscriptions : engine.subscriptions = engine'.subscriptions
  clientSubscriptions : engine.clientSubscriptions = engine'.clientSubscriptions
  buffers : ∀ key, (engine.messageBuffer.find? key).map RequestPrepare.content =
    (engine'.messageBuffer.find? key).map RequestPrepare.content

namespace SameEngine

variable {P N : Type} {engine engine' : Engine N}

theorem onPrepareReceive (h : SameEngine engine engine') {ackMemory ackMemory' : ResponsePrepare}
    {publishMemory publishMemory' : RequestPublish} {connection : P}
    {request request' : RequestPrepare} (hkey : request.key = request'.key)
    (hcontent : request.content = request'.content) :
    SameEngine (engine.onPrepareReceive ackMemory publishMemory connection request).1
      (engine'.onPrepareReceive ackMemory' publishMemory' connection request').1 where
  subscriptions := by
    have htopic : request.topicId = request'.topicId := congrArg Prod.fst hkey
    simp only [Engine.onPrepareReceive, h.subscriptions, htopic]
  clientSubscriptions := h.clientSubscriptions
  buffers := by
    intro key
    simp only [Engine.onPrepareReceive, ← hkey]
    by_cases hk : key = request.key
    · subst hk
      simp [hcontent]
    · simpa [Map.find?_set_ne, hk] using h.buffers key

variable [DecidableEq N]

/-- An update does not look at the message buffer. -/
theorem onUpdateSubscriptionReceive_messageBuffer (engine : Engine N)
    (buffer : Map Key RequestPrepare) (connection : N) (request : RequestUpdateSubscription) :
    ({ engine with messageBuffer := buffer } : Engine N).onUpdateSubscriptionReceive connection
        request =
      (engine.onUpdateSubscriptionReceive connection request).map fun engine' =>
        { engine' with messageBuffer := buffer } := by
  unfold Engine.onUpdateSubscriptionReceive
  by_cases hsub : request.isSubscribe = true
  · simp only [hsub, if_true, Option.map_some, Engine.subscribe, Engine.clients]
    by_cases hopen : engine.subscriptions.count request.topicId = 0 <;> simp [hopen]
  · simp only [hsub, Bool.false_eq_true, if_false]
    unfold Engine.unsubscribe
    rw [apply_ite (Option.map _), apply_ite (Option.map _), apply_ite (Option.map _)]
    rfl

theorem onUpdateSubscriptionReceive (h : SameEngine engine engine') {connection : N}
    {request request' : RequestUpdateSubscription} (htopic : request.topicId = request'.topicId)
    (haction : request.isSubscribe = request'.isSubscribe)
    (hclient : Engine.clientId request = Engine.clientId request') {after : Engine N}
    (hup : engine.onUpdateSubscriptionReceive connection request = some after) :
    ∃ after', engine'.onUpdateSubscriptionReceive connection request' = some after' ∧
      SameEngine after after' := by
  have hsame : engine' = { engine with messageBuffer := engine'.messageBuffer } := by
    obtain ⟨subscriptions, clientSubscriptions, messageBuffer⟩ := engine'
    simp [h.subscriptions, h.clientSubscriptions]
  have hup' := onUpdateSubscriptionReceive_messageBuffer engine engine'.messageBuffer connection
    request'
  rw [← hsame, ← Engine.onUpdateSubscriptionReceive_congr engine connection htopic haction
    hclient, hup] at hup'
  refine ⟨_, hup', rfl, rfl, fun key => ?_⟩
  rw [Engine.onUpdateSubscriptionReceive_messageBuffer hup]
  exact h.buffers key

end SameEngine

/-- A nuzzle does the same with a message that is the same and says the same. -/
theorem onPublishReceive_alike {E C : Type} (nuzzle : Nuzzle E C) (connection : E)
    {m m' : RequestPublishProto} (h : SameMessage m m') :
    (nuzzle.onPublishReceive connection (Nuzzle.MsgPublishReqRx.get m)).1 =
        (nuzzle.onPublishReceive connection (Nuzzle.MsgPublishReqRx.get m')).1 ∧
      List.Forall₂ (SamePeer SameMessage)
        ((nuzzle.onPublishReceive connection (Nuzzle.MsgPublishReqRx.get m)).2.map fun o =>
          (o.1, Nuzzle.MsgPublishReqTx.set o.2))
        ((nuzzle.onPublishReceive connection (Nuzzle.MsgPublishReqRx.get m')).2.map fun o =>
          (o.1, Nuzzle.MsgPublishReqTx.set o.2)) := by
  have hget : (Nuzzle.MsgPublishReqRx.get m).key = (Nuzzle.MsgPublishReqRx.get m').key := h.1
  have htopic : (Nuzzle.MsgPublishReqRx.get m).topicId = (Nuzzle.MsgPublishReqRx.get m').topicId :=
    congrArg Prod.fst h.1
  constructor
  · simp only [Nuzzle.onPublishReceive, hget, htopic]
  · simp only [Nuzzle.onPublishReceive, hget, htopic]
    by_cases hdeliver : nuzzle.Delivers connection (Nuzzle.MsgPublishReqRx.get m').key
    · simp only [hdeliver, if_true, List.map_map]
      refine List.forall₂_map_left_iff.mpr (List.forall₂_map_right_iff.mpr ?_)
      exact List.forall₂_same.mpr fun c _ => ⟨rfl, h.delivered⟩
    · simp only [hdeliver, if_false, List.map_nil]
      exact .nil

/-- A consumer logs the same line. -/
theorem onPublishReceive_logs_alike {N : Type} (consumer : Consumer N)
    {m m' : RequestPublishProto} (h : SameMessage m m') {now now' : UInt64} :
    consumer.onPublishReceive now now' (Consumer.MsgPublishReqRx.get m) =
      consumer.onPublishReceive now now' (Consumer.MsgPublishReqRx.get m') := by
  obtain ⟨hkey, hcontent⟩ := h
  have htopic : m.get.topicId = m'.get.topicId := congrArg Prod.fst hkey
  have hid : m.get.globalId = m'.get.globalId := congrArg Prod.snd hkey
  have htime : m.get.timestamp = m'.get.timestamp := congrArg Content.timestamp hcontent
  simp only [Consumer.onPublishReceive, Consumer.logLine, htopic, hid, htime]

/-- A nuzzle carries out requests for the same topic and action in the same way, and
forwards them to the same engines. -/
theorem onUpdateSubscriptionReceive_alike {E C : Type} [DecidableEq C] {nuzzle after : Nuzzle E C}
    {memory : E → RequestUpdateSubscription} (memory' : E → RequestUpdateSubscription)
    {connection : C} {request request' : RequestUpdateSubscription}
    {out : List (E × RequestUpdateSubscription)} (htopic : request.topicId = request'.topicId)
    (haction : request.isSubscribe = request'.isSubscribe)
    (h : nuzzle.onUpdateSubscriptionReceive memory connection request = some (after, out)) :
    ∃ action, out = nuzzle.forward memory request.topicId action ∧
      nuzzle.onUpdateSubscriptionReceive memory' connection request' =
        some (after, nuzzle.forward memory' request.topicId action) := by
  unfold Nuzzle.onUpdateSubscriptionReceive at h ⊢
  rw [← htopic, ← haction]
  by_cases hsub : request.isSubscribe = true
  · simp only [hsub, if_true, Option.some.injEq, Prod.mk.injEq] at h ⊢
    obtain ⟨hafter, hout⟩ := h
    exact ⟨1, hout.symm, hafter, rfl⟩
  · simp only [hsub, Bool.false_eq_true, if_false] at h ⊢
    by_cases hlisted : connection ∈ nuzzle.subscriptions.get request.topicId
    · simp only [hlisted, if_true, Option.some.injEq, Prod.mk.injEq] at h ⊢
      obtain ⟨hafter, hout⟩ := h
      exact ⟨0, hout.symm, hafter, rfl⟩
    · simp [hlisted] at h

/-! ## The system -/

namespace State

variable {B P E N C : Type}

/-- Two states that differ only in what no consumer sees and no server acts on. -/
structure Alike (s t : State B P E N C) : Prop where
  publisher : s.publisher = t.publisher
  pump : s.pump = t.pump
  engine : ∀ e, SameEngine (s.engine e) (t.engine e)
  nuzzle : s.nuzzle = t.nuzzle
  consumer : s.consumer = t.consumer
  publishes : ∀ link, Related SameContent (s.publishes link) (t.publishes link)
  prepares : ∀ link, Related SamePrepare (s.prepares link) (t.prepares link)
  acks : ∀ link, Related (fun _ _ => True) (s.acks link) (t.acks link)
  updates : ∀ link, Related SameUpdate (s.updates link) (t.updates link)
  fanouts : ∀ link, Related SameMessage (s.fanouts link) (t.fanouts link)
  requests : ∀ link, Related SameRequest (s.requests link) (t.requests link)
  deliveries : ∀ link, Related SameMessage (s.deliveries link) (t.deliveries link)

theorem alike_start (groupSize : UInt16) :
    Alike (start groupSize : State B P E N C) (start groupSize) where
  publisher := rfl
  pump := rfl
  engine := fun _ => ⟨rfl, rfl, fun _ => rfl⟩
  nuzzle := rfl
  consumer := rfl
  publishes := fun _ => Channel.related_empty
  prepares := fun _ => Channel.related_empty
  acks := fun _ => Channel.related_empty
  updates := fun _ => Channel.related_empty
  fanouts := fun _ => Channel.related_empty
  requests := fun _ => Channel.related_empty
  deliveries := fun _ => Channel.related_empty

variable [DecidableEq B] [DecidableEq P] [DecidableEq E] [DecidableEq N] [DecidableEq C]
variable {s s' t : State B P E N C}

theorem alike_publish (hR : Alike s t) {b : B} {now : UInt64} {request request' : RequestPublish}
    (htopic : request.topicId = request'.topicId) (hmessage : request.message = request'.message)
    (h : next s (.publish b now request) = some s') :
    ∃ t', next t (.publish b now request') = some t' ∧ Alike s' t' := by
  obtain ⟨publisher, p, sent, hpub, rfl⟩ := publish_next h
  have hpub' : (t.publisher b).publish now request' =
      some (publisher, p, { request' with timestamp := now }) ∧
        sent = { request with timestamp := now } := by
    rw [← hR.publisher]
    unfold Publisher.publish at hpub ⊢
    split at hpub
    · simp at hpub
    · simp only [Option.some.injEq, Prod.mk.injEq] at hpub
      obtain ⟨rfl, rfl, rfl⟩ := hpub
      exact ⟨rfl, rfl⟩
  obtain ⟨hpub', rfl⟩ := hpub'
  refine ⟨_, by rw [next, hpub'], ?_⟩
  have hsent : List.Forall₂ (SamePeer SameContent)
      [(p, Publisher.MsgPublishReqTx.set { request with timestamp := now })]
      [(p, Publisher.MsgPublishReqTx.set { request' with timestamp := now })] := by
    refine .cons ⟨rfl, ?_⟩ .nil
    simp [SameContent, RequestPublish.content, htopic, hmessage]
  exact { hR with
    publisher := by rw [hR.publisher]
    publishes := Channel.related_post hR.publishes b hsent }

theorem alike_updateSubscribtion (hR : Alike s t) {c : C}
    {request request' : RequestUpdateSubscription} (htopic : request.topicId = request'.topicId)
    (haction : request.action = request'.action)
    (h : next s (.updateSubscribtion c request) = some s') :
    ∃ t', next t (.updateSubscribtion c request') = some t' ∧ Alike s' t' := by
  obtain ⟨n, sent, hupdate, rfl⟩ := updateSubscribtion_next h
  obtain ⟨connection, hconn, heq⟩ := Option.map_eq_some_iff.mp hupdate
  obtain ⟨rfl, rfl⟩ := Prod.mk.inj heq
  have hupdate' : (t.consumer c).updateSubscribtion request' = some (connection, request') := by
    rw [← hR.consumer, Consumer.updateSubscribtion, hconn, Option.map_some]
  refine ⟨_, by rw [next, hupdate'], ?_⟩
  have hsent : List.Forall₂ (SamePeer SameRequest)
      [(connection, Consumer.MsgUpdateSubscriptionReqTx.set request)]
      [(connection, Consumer.MsgUpdateSubscriptionReqTx.set request')] := by
    refine .cons ⟨rfl, htopic, ?_⟩ .nil
    simp [RequestUpdateSubscription.isSubscribe, RequestUpdateSubscription.setWithTelemetry,
      RequestUpdateSubscriptionProto.get, haction]
  exact { hR with requests := Channel.related_post hR.requests c hsent }

theorem alike_pumpOnPublish (hR : Alike s t) {b : B} {p : P} {memory memory' : RequestPrepare}
    (h : next s (.pumpOnPublish b p memory) = some s') :
    ∃ t', next t (.pumpOnPublish b p memory') = some t' ∧ Alike s' t' := by
  obtain ⟨m, ch, r, hpop, rfl, rfl⟩ := pumpOnPublish_next h
  obtain ⟨m', ch', hpop', hm, hch⟩ := (hR.publishes (b, p)).pop? hpop
  refine ⟨_, by rw [next, hpop'], ?_⟩
  have hcontent : m.get.content = m'.get.content := hm
  have hsent : List.Forall₂ (SamePeer SamePrepare)
      (((s.pump p).onPublishReceive memory m.get).2.map fun o =>
        (o.1, Pump.MsgPrepareReqTx.set o.2))
      (((t.pump p).onPublishReceive memory' m'.get).2.map fun o =>
        (o.1, Pump.MsgPrepareReqTx.set o.2)) := by
    rw [← hR.pump]
    simp only [Pump.onPublishReceive, List.map_map]
    refine List.forall₂_map_left_iff.mpr (List.forall₂_map_right_iff.mpr ?_)
    refine List.forall₂_same.mpr fun e _ => ⟨rfl, ?_, hcontent⟩
    exact Prod.ext (congrArg Content.topicId hcontent) rfl
  exact { hR with
    pump := by rw [hR.pump]; rfl
    publishes := Channel.related_update hR.publishes (b, p) hch
    prepares := Channel.related_post hR.prepares p hsent }

theorem alike_engineOnPrepare (hR : Alike s t) {p : P} {e : E}
    {ackMemory ackMemory' : ResponsePrepare} {publishMemory publishMemory' : RequestPublish}
    (h : next s (.engineOnPrepare p e ackMemory publishMemory) = some s') :
    ∃ t', next t (.engineOnPrepare p e ackMemory' publishMemory') = some t' ∧ Alike s' t' := by
  obtain ⟨m, ch, r, hpop, rfl, rfl⟩ := engineOnPrepare_next h
  obtain ⟨m', ch', hpop', ⟨hkey, hcontent⟩, hch⟩ := (hR.prepares (p, e)).pop? hpop
  refine ⟨_, by rw [next, hpop'], ?_⟩
  have htopic : m.get.topicId = m'.get.topicId := congrArg Prod.fst hkey
  have hacks : List.Forall₂ (SamePeer fun _ _ : ResponsePrepareProto => True)
      (((s.engine e).onPrepareReceive ackMemory publishMemory p m.get).2.1.map fun o =>
        (o.1, Engine.MsgPrepareRspTx.set o.2))
      (((t.engine e).onPrepareReceive ackMemory' publishMemory' p m'.get).2.1.map fun o =>
        (o.1, Engine.MsgPrepareRspTx.set o.2)) := .cons ⟨rfl, trivial⟩ .nil
  have hfanouts : List.Forall₂ (SamePeer SameMessage)
      (((s.engine e).onPrepareReceive ackMemory publishMemory p m.get).2.2.map fun o =>
        (o.1, Engine.MsgPublishReqTx.set o.2))
      (((t.engine e).onPrepareReceive ackMemory' publishMemory' p m'.get).2.2.map fun o =>
        (o.1, Engine.MsgPublishReqTx.set o.2)) := by
    simp only [Engine.onPrepareReceive, List.map_map, (hR.engine e).subscriptions, htopic]
    refine List.forall₂_map_left_iff.mpr (List.forall₂_map_right_iff.mpr ?_)
    exact List.forall₂_same.mpr fun n _ => ⟨rfl, hkey, hcontent⟩
  exact { hR with
    engine := by
      intro e'
      by_cases he : e' = e
      · subst he
        simpa using (hR.engine e').onPrepareReceive hkey hcontent
      · simpa [he] using hR.engine e'
    prepares := Channel.related_update hR.prepares (p, e) hch
    acks := Channel.related_post hR.acks e hacks
    fanouts := Channel.related_post hR.fanouts e hfanouts }

theorem alike_engineOnUpdate (hR : Alike s t) {n : N} {e : E}
    (h : next s (.engineOnUpdate n e) = some s') :
    ∃ t', next t (.engineOnUpdate n e) = some t' ∧ Alike s' t' := by
  obtain ⟨m, ch, engine, hpop, hup, rfl⟩ := engineOnUpdate_next h
  obtain ⟨m', ch', hpop', ⟨htopic, haction, hclient⟩, hch⟩ := (hR.updates (n, e)).pop? hpop
  obtain ⟨engine', hup', hsame⟩ :=
    (hR.engine e).onUpdateSubscriptionReceive htopic haction hclient hup
  have hnext : next t (.engineOnUpdate n e) = some { t with
      engine := update t.engine e engine'
      updates := update t.updates (n, e) ch' } := by
    simp only [next, hpop']
    rw [hup']
  refine ⟨_, hnext, ?_⟩
  exact { hR with
    engine := by
      intro e'
      by_cases he : e' = e
      · subst he
        simpa using hsame
      · simpa [he] using hR.engine e'
    updates := Channel.related_update hR.updates (n, e) hch }

theorem alike_nuzzleOnPublish (hR : Alike s t) {e : E} {n : N}
    (h : next s (.nuzzleOnPublish e n) = some s') :
    ∃ t', next t (.nuzzleOnPublish e n) = some t' ∧ Alike s' t' := by
  obtain ⟨m, ch, r, hpop, rfl, rfl⟩ := nuzzleOnPublish_next h
  obtain ⟨m', ch', hpop', hm, hch⟩ := (hR.fanouts (e, n)).pop? hpop
  obtain ⟨hafter, hsent⟩ := onPublishReceive_alike (t.nuzzle n) e hm
  refine ⟨_, by rw [next, hpop'], ?_⟩
  rw [hR.nuzzle]
  exact { hR with
    nuzzle := congrArg (update t.nuzzle n) hafter
    fanouts := Channel.related_update hR.fanouts (e, n) hch
    deliveries := Channel.related_post hR.deliveries n hsent }

theorem alike_nuzzleOnUpdate (hR : Alike s t) {c : C} {n : N}
    {memory memory' : E → RequestUpdateSubscription}
    (hclients : ∀ e, (memory e).header.senderId = (memory' e).header.senderId)
    (h : next s (.nuzzleOnUpdate c n memory) = some s') :
    ∃ t', next t (.nuzzleOnUpdate c n memory') = some t' ∧ Alike s' t' := by
  obtain ⟨m, ch, nuzzle, out, hpop, hup, rfl⟩ := nuzzleOnUpdate_next h
  obtain ⟨m', ch', hpop', ⟨htopic, haction⟩, hch⟩ := (hR.requests (c, n)).pop? hpop
  obtain ⟨action, rfl, hup'⟩ := onUpdateSubscriptionReceive_alike memory' htopic haction hup
  rw [hR.nuzzle] at hup' ⊢
  have hnext : next t (.nuzzleOnUpdate c n memory') = some { t with
      nuzzle := update t.nuzzle n nuzzle
      requests := update t.requests (c, n) ch'
      updates := Channel.post t.updates n
        (((t.nuzzle n).forward memory' m.get.topicId action).map fun o =>
          (o.1, Nuzzle.MsgUpdateSubscriptionReqTx.set o.2)) } := by
    simp only [next, hpop']
    rw [hup']
  refine ⟨_, hnext, ?_⟩
  have hsent : List.Forall₂ (SamePeer SameUpdate)
      (((t.nuzzle n).forward memory m.get.topicId action).map fun o =>
        (o.1, Nuzzle.MsgUpdateSubscriptionReqTx.set o.2))
      (((t.nuzzle n).forward memory' m.get.topicId action).map fun o =>
        (o.1, Nuzzle.MsgUpdateSubscriptionReqTx.set o.2)) := by
    simp only [Nuzzle.forward, List.map_map]
    refine List.forall₂_map_left_iff.mpr (List.forall₂_map_right_iff.mpr ?_)
    exact List.forall₂_same.mpr fun e _ =>
      ⟨rfl, Forwarding.sameUpdate_forwarded (hclients e)⟩
  exact { hR with
    nuzzle := rfl
    requests := Channel.related_update hR.requests (c, n) hch
    updates := Channel.related_post hR.updates n hsent }

theorem alike_consumerOnPublish (hR : Alike s t) {n : N} {c : C} {now now' : UInt64}
    (h : next s (.consumerOnPublish n c now now') = some s') :
    ∃ t', next t (.consumerOnPublish n c now now') = some t' ∧ Alike s' t' := by
  obtain ⟨m, ch, hpop, rfl⟩ := consumerOnPublish_next h
  obtain ⟨m', ch', hpop', hm, hch⟩ := (hR.deliveries (n, c)).pop? hpop
  refine ⟨_, by rw [next, hpop'], ?_⟩
  rw [hR.consumer]
  exact { hR with
    consumer := congrArg (update t.consumer c) (onPublishReceive_logs_alike (t.consumer c) hm)
    deliveries := Channel.related_update hR.deliveries (n, c) hch }

theorem alike_pumpOnPrepareAck (hR : Alike s t) {e : E} {p : P}
    (h : next s (.pumpOnPrepareAck e p) = some s') :
    ∃ t', next t (.pumpOnPrepareAck e p) = some t' ∧ Alike s' t' := by
  obtain ⟨m, ch, hpop, rfl⟩ := pumpOnPrepareAck_next h
  obtain ⟨m', ch', hpop', -, hch⟩ := (hR.acks (e, p)).pop? hpop
  refine ⟨_, by rw [next, hpop'], ?_⟩
  exact { hR with
    pump := by simp only [hR.pump, Pump.onPrepareAckReceive]
    acks := Channel.related_update hR.acks (e, p) hch }

/-- What one execution can do the other can do, and they stay alike. -/
theorem alike_next (hR : Alike s t) {a a' : Action B P E N C} (hacts : ActsAlike a a')
    (h : next s a = some s') : ∃ t', next t a' = some t' ∧ Alike s' t' := by
  cases hacts with
  | connectToPump b p =>
      obtain rfl := connectToPump_next h
      exact ⟨_, rfl, { hR with publisher := by rw [hR.publisher] }⟩
  | pumpConnectToEngine p e =>
      obtain ⟨hnew, rfl⟩ := pumpConnectToEngine_next h
      rw [hR.pump] at hnew
      refine ⟨_, by rw [next, if_neg hnew], ?_⟩
      exact { hR with pump := by rw [hR.pump] }
  | nuzzleConnectToEngine n e =>
      obtain ⟨hnew, rfl⟩ := nuzzleConnectToEngine_next h
      rw [hR.nuzzle] at hnew
      refine ⟨_, by rw [next, if_neg hnew], ?_⟩
      exact { hR with nuzzle := by rw [hR.nuzzle] }
  | connectToNuzzle c n =>
      obtain rfl := connectToNuzzle_next h
      exact ⟨_, rfl, { hR with consumer := by rw [hR.consumer] }⟩
  | publish b now htopic hmessage => exact alike_publish hR htopic hmessage h
  | updateSubscribtion c htopic haction => exact alike_updateSubscribtion hR htopic haction h
  | pumpOnPublish b p memory memory' => exact alike_pumpOnPublish hR h
  | pumpOnPrepareAck e p => exact alike_pumpOnPrepareAck hR h
  | engineOnPrepare p e ackMemory ackMemory' publishMemory publishMemory' =>
      exact alike_engineOnPrepare hR h
  | engineOnUpdate n e => exact alike_engineOnUpdate hR h
  | nuzzleOnPublish e n => exact alike_nuzzleOnPublish hR h
  | nuzzleOnUpdate c n hclients => exact alike_nuzzleOnUpdate hR hclients h
  | consumerOnPublish n c now now' => exact alike_consumerOnPublish hR h

/-- An execution can be repeated with other headers, telemetry, identifiers and memory:
every step is again possible, every message again has its key and content, and the
consumers log the same. -/
theorem only_content_matters {groupSize : UInt16} {trace : Trace B P E N C}
    {s : State B P E N C} {labels' : List (Action B P E N C)} (h : Runs groupSize trace s)
    (halike : List.Forall₂ ActsAlike (trace.map (·.2)) labels') :
    ∃ trace' s', Runs groupSize trace' s' ∧ trace'.map (·.2) = labels' ∧ Alike s s' :=
  Run.lockstep h halike (alike_start groupSize)
    fun _ _ _ _ _ hR hacts hone => alike_next hR hacts hone

/-- A message is delivered and logged. -/
def oneLogged : List (Action Unit Unit Unit Unit Unit) :=
  oneDelivery () () () () () ++ [.consumerOnPublish () () 6 8]

/-- The same with an identifier and a time from the client and other values in memory. -/
def oneLoggedAgain : List (Action Unit Unit Unit Unit Unit) :=
  [.pumpConnectToEngine () (), .nuzzleConnectToEngine () (), .connectToPump () (),
    .connectToNuzzle () (), .updateSubscribtion () { RequestUpdateSubscription.on 7 1 with
      timestamp := 3 },
    .nuzzleOnUpdate () () (fun _ => .on 9 0), .engineOnUpdate () (),
    .publish () 5 { RequestPublish.on 7 [1] with globalId := 9, timestamp := 2 },
    .pumpOnPublish () () { (default : RequestPrepare) with topicId := 8, message := [4] },
    .engineOnPrepare () () default (.on 8 [5]), .nuzzleOnPublish () (),
    .consumerOnPublish () () 6 8]

theorem only_content_matters_oneLogged :
    ∃ (trace trace' : Trace Unit Unit Unit Unit Unit) (s s' : State Unit Unit Unit Unit Unit),
      Runs 1 trace s ∧ (s.consumer ()).logBuffer = ["6,7,0,3"] ∧
        Runs 1 trace' s' ∧ trace'.map (·.2) = oneLoggedAgain ∧ Alike s s' := by
  obtain ⟨trace, s, hrun, hlabels, hlog⟩ :=
    exists_labelled_run_of_execute oneLogged next (start 1 : State Unit Unit Unit Unit Unit)
      (fun _ s => (s.consumer ()).logBuffer = ["6,7,0,3"]) (by decide +kernel)
  have halike : List.Forall₂ ActsAlike (trace.map (·.2)) oneLoggedAgain := by
    rw [hlabels]
    unfold oneLogged oneDelivery oneLoggedAgain
    repeat' constructor
    exact fun _ => rfl
  obtain ⟨trace', s', hrun', hlabels', hR⟩ := only_content_matters hrun halike
  exact ⟨trace, trace', s, s', hrun, hlog, hrun', hlabels', hR⟩

end State

end Firehose.Cluster
