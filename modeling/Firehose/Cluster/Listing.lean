import Firehose.Cluster.EngineRun

set_option autoImplicit false

/-!
# How often an engine lists a nuzzle

A prepare goes out once for every entry of its topic, so a nuzzle is sent one copy exactly
when it is listed once.  The engine takes an entry out when the last client of a nuzzle
connection leaves, and adds one with every subscribe; the two agree as long as a
connection subscribes only while the engine has no client of it.
-/

namespace Firehose.Cluster

open Firehose.Api Firehose.Foundation Firehose.Node
open Channel (addressedTo)

/-- The update that is handled and whom it comes from. -/
def EngineEvent.updatedBy {P N : Type} :
    EngineEvent P N → Option (N × RequestUpdateSubscriptionProto)
  | .update n m => some (n, m)
  | _ => none

namespace EngineNode

variable {P N : Type} [DecidableEq P] [DecidableEq N]

/-- A prepare is sent once to each nuzzle with a client on its topic, and to no other. -/
def PublishesOnce (node : EngineNode P N) : EngineEvent P N → Prop
  | .prepare p ackMemory publishMemory m => ∀ n,
      addressedTo n (node.engine.onPrepareReceive ackMemory publishMemory p
        (Engine.MsgPrepareReqRx.get m)).2.2 =
        if node.engine.clients m.topicId n = [] then []
        else [Engine.publishOf publishMemory (Engine.MsgPrepareReqRx.get m)]
  | _ => True

/-- In every state of a run each nuzzle is listed once or not at all, as it has clients,
and so every prepare is sent to those that have. -/
structure ListedByClients (trace : List (EngineNode P N × EngineEvent P N))
    (node : EngineNode P N) : Prop where
  lists : Throughout (fun node => node.engine.ListsExactly) trace node
  publishes : ∀ x ∈ trace, PublishesOnce x.1 x.2

/-- A subscribe comes from a connection the engine has no client of on that topic. -/
def SubscribesFirst (node : EngineNode P N) (event : EngineEvent P N) : Prop :=
  ∀ r ∈ event.updatedBy, r.2.get.isSubscribe = true →
    node.engine.clients r.2.get.topicId r.1 = []

instance (node : EngineNode P N) (event : EngineEvent P N) :
    Decidable (SubscribesFirst node event) :=
  inferInstanceAs (Decidable (∀ r ∈ event.updatedBy, r.2.get.isSubscribe = true →
    node.engine.clients r.2.get.topicId r.1 = []))

omit [DecidableEq P] in
theorem publishesOnce_of_listsExactly {node : EngineNode P N}
    (h : node.engine.ListsExactly) (event : EngineEvent P N) : PublishesOnce node event := by
  cases event with
  | prepare p ackMemory publishMemory m =>
      intro n
      have hcount := h m.topicId n
      have hout : addressedTo n (node.engine.onPrepareReceive ackMemory publishMemory p
          m.get).2.2 = List.replicate ((node.engine.subscriptions.get m.topicId).count n)
            (Engine.publishOf publishMemory m.get) :=
        Channel.addressedTo_map n (node.engine.subscriptions.get m.topicId) fun _ =>
          Engine.publishOf publishMemory m.get
      rw [hout, hcount]
      split <;> rfl
  | accept | update => trivial

/-- From an engine that lists exactly, a step leads to one that does exactly when it is not
a second subscribe. -/
theorem listsExactly_next_iff {node node' : EngineNode P N} {event : EngineEvent P N}
    (hbal : Balanced node) (hinv : node.engine.ListsExactly)
    (h : Steps next node event node') :
    node'.engine.ListsExactly ↔ SubscribesFirst node event := by
  cases event with
  | prepare p ackMemory publishMemory m =>
      simp only [Steps, next, Option.some.injEq] at h
      subst h
      refine iff_of_true (fun topic n => ?_) (by simp [SubscribesFirst, EngineEvent.updatedBy])
      rw [Engine.onPrepareReceive_subscriptions_get]
      exact hinv topic n
  | accept p request =>
      simp only [Steps, next, Option.some.injEq] at h
      subst h
      exact iff_of_true hinv (by simp [SubscribesFirst, EngineEvent.updatedBy])
  | update n m =>
      obtain ⟨engine, hup, rfl⟩ := update_next h
      rw [Engine.listsExactly_onUpdateSubscriptionReceive_iff hbal.covered hinv hup]
      simp [SubscribesFirst, EngineEvent.updatedBy]

theorem listsExactly_throughout_iff {trace : List (EngineNode P N × EngineEvent P N)}
    {node : EngineNode P N} (h : Run (Steps next) start trace node) :
    Throughout (fun node => node.engine.ListsExactly) trace node ↔
      ∀ x ∈ trace, SubscribesFirst x.1 x.2 := by
  induction h with
  | refl => simp [Throughout, start, Engine.listsExactly_new]
  | @snoc trace node node' event hrun hstep ih =>
      rw [throughout_snoc, ih, List.forall_mem_append, List.forall_mem_singleton]
      refine and_congr_right fun hfirst => ?_
      exact listsExactly_next_iff (balanced_run hrun) (ih.mpr hfirst).2 hstep

/-- Over a run of an engine every nuzzle is listed and served by its clients exactly when
no connection subscribed while it had a client on the topic. -/
theorem listedByClients_iff {trace : List (EngineNode P N × EngineEvent P N)}
    {node : EngineNode P N} (h : Run (Steps next) start trace node) :
    ListedByClients trace node ↔ ∀ x ∈ trace, SubscribesFirst x.1 x.2 := by
  rw [← listsExactly_throughout_iff h]
  constructor
  · exact fun hlisted => hlisted.lists
  · exact fun hlists => ⟨hlists, fun x hx => publishesOnce_of_listsExactly (hlists.1 x hx) x.2⟩

/-- Two clients of one nuzzle subscribe, the first one unsubscribes, and a prepare
arrives. -/
def twoClients (p : P) (n : N) : List (EngineEvent P N) :=
  [.update n { (RequestUpdateSubscription.on 7 1).set with header := ⟨some 1, none, none⟩ },
    .update n { (RequestUpdateSubscription.on 7 1).set with header := ⟨some 2, none, none⟩ },
    .update n { (RequestUpdateSubscription.on 7 0).set with header := ⟨some 1, none, none⟩ },
    .prepare p default default { (default : RequestPrepareProto) with topicId := 7 }]

theorem twoClients_not_listedByClients :
    ¬ ∀ (trace : List (EngineNode (Fin 1) (Fin 1) × EngineEvent (Fin 1) (Fin 1)))
      (node : EngineNode (Fin 1) (Fin 1)),
        Run (Steps next) start trace node → ListedByClients trace node := by
  intro hclaim
  obtain ⟨trace, node, hrun, hclient, hcount⟩ :=
    exists_run_of_execute (twoClients 0 0) next
      (start : EngineNode (Fin 1) (Fin 1))
      (fun _ node => node.engine.clients 7 0 = [2] ∧
        (node.engine.subscriptions.get 7).count 0 = 2) (by decide +kernel)
  have hlists := (hclaim trace node hrun).lists.2 7 0
  rw [hclient, hcount] at hlists
  simp at hlists

/-- There the two sides of the equivalence fail together. -/
theorem listedByClients_iff_twoClients :
    ∃ (trace : List (EngineNode (Fin 1) (Fin 1) × EngineEvent (Fin 1) (Fin 1)))
      (node : EngineNode (Fin 1) (Fin 1)), Run (Steps next) start trace node ∧
        (node.fanouts 0).length = 2 ∧
        (ListedByClients trace node ↔ ∀ x ∈ trace, SubscribesFirst x.1 x.2) := by
  obtain ⟨trace, node, hrun, hcopies⟩ :=
    exists_run_of_execute (twoClients 0 0) next
      (start : EngineNode (Fin 1) (Fin 1))
      (fun _ node => (node.fanouts 0).length = 2) (by decide +kernel)
  exact ⟨trace, node, hrun, hcopies, listedByClients_iff hrun⟩

end EngineNode

end Firehose.Cluster
