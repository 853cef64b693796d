import Firehose.Cluster.EngineRun

set_option autoImplicit false

/-!
# Subscriptions of one topic and one connection

What an engine keeps for a topic and a nuzzle connection is the replay of the update
requests on that topic from that connection.  A prepare leaves an empty entry behind and
so closes the branch that opens a topic; neither that nor any other request is seen by
the replay.
-/

namespace Firehose.Cluster

open Firehose.Api Firehose.Foundation Firehose.Node

/-- The update on a topic from a connection that is handled. -/
def EngineEvent.updatedOn {P N : Type} [DecidableEq N] (topic : UInt64) (n : N) :
    EngineEvent P N → Option RequestUpdateSubscriptionProto
  | .update n' m => if n' = n ∧ m.topicId = topic then some m else none
  | _ => none

/-- The clients recorded for a topic and a connection, and how often the connection is
listed under the topic. -/
structure TopicRecord where
  clients : List UInt64
  entries : Nat
  deriving DecidableEq

namespace TopicRecord

/-- What one update request makes of a record. -/
def update (r : TopicRecord) (m : RequestUpdateSubscriptionProto) : TopicRecord :=
  if m.get.isSubscribe then
    ⟨r.clients ++ [Engine.clientId m.get], r.entries + 1⟩
  else
    let rest := r.clients.erase (Engine.clientId m.get)
    ⟨rest, if rest.length = 0 then r.entries - 1 else r.entries⟩

end TopicRecord

namespace EngineNode

variable {P N : Type} [DecidableEq P] [DecidableEq N]

/-- The update requests on a topic from a connection in a trace, in order. -/
def updatesOn (topic : UInt64) (n : N) (trace : List (EngineNode P N × EngineEvent P N)) :
    List RequestUpdateSubscriptionProto :=
  trace.filterMap fun x => x.2.updatedOn topic n

/-- What an engine keeps for a topic and a connection. -/
def recordOf (topic : UInt64) (n : N) (node : EngineNode P N) : TopicRecord :=
  ⟨node.engine.clients topic n, (node.engine.subscriptions.get topic).count n⟩

/-- An update moves the record of its own topic and connection and no other. -/
theorem recordOf_next_update {node node' : EngineNode P N} (hinv : Balanced node) {n' : N}
    {m : RequestUpdateSubscriptionProto} (h : Steps next node (.update n' m) node')
    (topic : UInt64) (n : N) :
    recordOf topic n node' =
      if n' = n ∧ m.topicId = topic then (recordOf topic n node).update m
      else recordOf topic n node := by
  obtain ⟨engine, hup, rfl⟩ := update_next h
  have htopic : m.get.topicId = m.topicId := rfl
  unfold recordOf TopicRecord.update
  rcases Engine.onUpdateSubscriptionReceive_cases hup with ⟨hsub, rfl⟩ | ⟨hsub, hun⟩
  · simp only [hsub, if_true]
    rw [Engine.subscribe_clients hinv.covered, Engine.subscribe_subscriptions_get, htopic]
    by_cases ht : m.topicId = topic
    · subst ht
      by_cases hn : n' = n
      · subst hn
        simp
      · simp [hn, Ne.symm hn]
    · simp [ht, Ne.symm ht]
  · simp only [hsub, Bool.false_eq_true, if_false]
    obtain ⟨-, -, hclients, hsubs⟩ := Engine.unsubscribe_eq_some hun
    rw [hclients, hsubs, htopic]
    by_cases ht : m.topicId = topic
    · subst ht
      by_cases hn : n' = n
      · -- the last client of the connection takes one of its entries along
        subst hn
        by_cases hlast : ((node.engine.clients m.topicId n').erase
            (Engine.clientId m.get)).length = 0
        · simp [hlast, List.count_erase_self]
        · simp [hlast]
      · simp only [hn, Ne.symm hn, and_false, false_and, if_false]
        split
        · rw [List.count_erase_of_ne (Ne.symm hn)]
        · rfl
    · simp [ht, Ne.symm ht]

/-- One step moves a record exactly when it handles an update on its topic from its
connection. -/
theorem recordOf_next {node node' : EngineNode P N} {event : EngineEvent P N}
    (hinv : Balanced node) (h : Steps next node event node') (topic : UInt64) (n : N) :
    recordOf topic n node' =
      (event.updatedOn topic n).elim (recordOf topic n node)
        (recordOf topic n node).update := by
  cases event with
  | prepare p ackMemory publishMemory m =>
      -- the empty entry that a prepare leaves behind reads as no entry
      simp only [Steps, next, Option.some.injEq] at h
      subst h
      simp [recordOf, EngineEvent.updatedOn]
  | accept p request =>
      simp only [Steps, next, Option.some.injEq] at h
      subst h
      rfl
  | update n' m =>
      rw [recordOf_next_update hinv h, EngineEvent.updatedOn]
      split <;> rfl

/-- After any run a record is the replay of the update requests on its topic from its
connection. -/
theorem recordOf_run {trace : List (EngineNode P N × EngineEvent P N)} {node : EngineNode P N}
    (h : Run (Steps next) start trace node) (topic : UInt64) (n : N) :
    recordOf topic n node = (updatesOn topic n trace).foldl TopicRecord.update ⟨[], 0⟩ :=
  h.replay (I := Balanced) balanced_start (fun _ _ _ hinv hstep => balanced_next hinv hstep)
    fun _ _ _ hinv hstep => recordOf_next hinv hstep topic n

/-- Two runs with the same update requests on a topic from a connection leave the same
clients recorded and the connection listed equally often, whatever else they handle. -/
theorem subscriptions_independent {trace trace' : List (EngineNode P N × EngineEvent P N)}
    {node node' : EngineNode P N} (h : Run (Steps next) start trace node)
    (h' : Run (Steps next) start trace' node') {topic : UInt64} {n : N}
    (hsame : updatesOn topic n trace = updatesOn topic n trace') :
    node.engine.clients topic n = node'.engine.clients topic n ∧
      (node.engine.subscriptions.get topic).count n =
        (node'.engine.subscriptions.get topic).count n := by
  have hrecord : recordOf topic n node = recordOf topic n node' := by
    rw [recordOf_run h, recordOf_run h', hsame]
  simpa [recordOf] using hrecord

/-- A prepare comes first, then the connection subscribes to its topic. -/
def prepareThenSubscribe (p : P) (n : N) : List (EngineEvent P N) :=
  [.prepare p default default { (default : RequestPrepareProto) with topicId := 7 },
    .update n (RequestUpdateSubscription.on 7 1).set]

/-- Another connection opens the topic and leaves it again after the connection has
subscribed. -/
def subscribeBetween (n n' : N) : List (EngineEvent P N) :=
  [.update n' (RequestUpdateSubscription.on 7 1).set,
    .update n (RequestUpdateSubscription.on 7 1).set,
    .update n (RequestUpdateSubscription.on 8 1).set,
    .update n' (RequestUpdateSubscription.on 7 0).set]

theorem subscriptions_independent_between :
    ∃ (trace trace' : List (EngineNode (Fin 1) (Fin 2) × EngineEvent (Fin 1) (Fin 2)))
      (node node' : EngineNode (Fin 1) (Fin 2)), Run (Steps next) start trace node ∧
        Run (Steps next) start trace' node' ∧ node.engine.clients 7 0 = [0] ∧
        node.engine.clients 7 0 = node'.engine.clients 7 0 ∧
        (node.engine.subscriptions.get 7).count 0 =
          (node'.engine.subscriptions.get 7).count 0 := by
  obtain ⟨trace, node, hrun, hupdates, hclients⟩ :=
    exists_run_of_execute (prepareThenSubscribe 0 0) next
      (start : EngineNode (Fin 1) (Fin 2))
      (fun trace node => updatesOn 7 0 trace = [(RequestUpdateSubscription.on 7 1).set] ∧
        node.engine.clients 7 0 = [0]) (by decide +kernel)
  obtain ⟨trace', node', hrun', hupdates'⟩ :=
    exists_run_of_execute (subscribeBetween 0 1) next
      (start : EngineNode (Fin 1) (Fin 2))
      (fun trace _ => updatesOn 7 0 trace = [(RequestUpdateSubscription.on 7 1).set])
      (by decide +kernel)
  exact ⟨trace, trace', node, node', hrun, hrun', hclients,
    subscriptions_independent hrun hrun' (hupdates.trans hupdates'.symm)⟩

end EngineNode

end Firehose.Cluster
