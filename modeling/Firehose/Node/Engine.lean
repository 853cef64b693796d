import Firehose.Api.Proto
import Firehose.Foundation.Map
import Mathlib.Data.List.Basic

set_option autoImplicit false

/-!
# The engine (`engine.cpp`)

`P` is the type of the engine's connections from pumps, `N` that of its
connections from nuzzles.  The simulated latency of non-volatile memory is left
out: it delays a handler and changes nothing it computes.
-/

namespace Firehose.Node

open Firehose.Api Firehose.Foundation

/-- The state of `class Engine` that its handlers read. -/
structure Engine (N : Type) where
  subscriptions : Map UInt64 (List N)
  clientSubscriptions : Map UInt64 (Map N (List UInt64))
  messageBuffer : Map Key RequestPrepare

namespace Engine

variable {P N : Type}

/-- `Engine::Engine`. -/
def new : Engine N := ⟨.empty, .empty, .empty⟩

/-- The client identifier of a request, as the `uint64_t` an engine keeps. -/
def clientId (request : RequestUpdateSubscription) : UInt64 :=
  request.header.senderId.toInt64.toUInt64

/-- The clients an engine has recorded for a topic and a nuzzle connection. -/
def clients [DecidableEq N] (engine : Engine N) (topic : UInt64) (connection : N) :
    List UInt64 :=
  (engine.clientSubscriptions.get topic).get connection

/-- The response `Engine::on_prepare_receive` acknowledges a prepare with. -/
def prepareAck (memory : ResponsePrepare) (request : RequestPrepare) : ResponsePrepare :=
  let response := ResponsePrepare.declared memory
  { response with
    header := { response.header with status := firehoseSuccess }
    globalId := request.globalId
    topicId := request.topicId }

/-- The publish `Engine::on_prepare_receive` sends to the subscribed nuzzles. -/
def publishOf (memory : RequestPublish) (request : RequestPrepare) : RequestPublish :=
  { RequestPublish.declared memory with
    topicId := request.topicId
    globalId := request.globalId
    timestamp := request.timestamp
    message := request.message }

/-- `Engine::on_prepare_receive`: store the request, whatever the buffer holds under its
key, acknowledge it, and send one copy for every entry of the topic's subscriptions. -/
def onPrepareReceive (engine : Engine N) (ackMemory : ResponsePrepare)
    (publishMemory : RequestPublish) (connection : P) (request : RequestPrepare) :
    Engine N × List (P × ResponsePrepare) × List (N × RequestPublish) :=
  ({ engine with
      messageBuffer := engine.messageBuffer.set request.key request
      subscriptions := engine.subscriptions.touch request.topicId },
    [(connection, prepareAck ackMemory request)],
    (engine.subscriptions.get request.topicId).map fun nuzzle =>
      (nuzzle, publishOf publishMemory request))

/-- `Engine::on_accept_receive` does nothing. -/
def onAcceptReceive (engine : Engine N) (_connection : P) (_request : RequestAccept) :
    Engine N := engine

variable [DecidableEq N]

/-- The subscribe branch of `Engine::on_update_subscription_receive`. -/
def subscribe (engine : Engine N) (connection : N) (request : RequestUpdateSubscription) :
    Engine N :=
  let topic := request.topicId
  let opened : Engine N :=
    if engine.subscriptions.count topic = 0 then
      { engine with
        subscriptions := engine.subscriptions.set topic []
        clientSubscriptions :=
          engine.clientSubscriptions.set topic (Map.empty.set connection []) }
    else engine
  { opened with
    subscriptions :=
      opened.subscriptions.set topic (opened.subscriptions.get topic ++ [connection])
    clientSubscriptions :=
      opened.clientSubscriptions.set topic
        ((opened.clientSubscriptions.get topic).set connection
          (opened.clients topic connection ++ [clientId request])) }

/-- The unsubscribe branch of `Engine::on_update_subscription_receive`.  Erasing what
`std::find` did not find is undefined behaviour, and then there is no result. -/
def unsubscribe (engine : Engine N) (connection : N) (request : RequestUpdateSubscription) :
    Option (Engine N) :=
  let topic := request.topicId
  let listed := engine.clients topic connection
  if clientId request ∈ listed then
    let rest := listed.erase (clientId request)
    let engine' : Engine N :=
      { engine with
        clientSubscriptions :=
          engine.clientSubscriptions.set topic
            ((engine.clientSubscriptions.get topic).set connection rest) }
    if rest.length = 0 then
      let entries := engine.subscriptions.get topic
      if connection ∈ entries then
        some { engine' with
          subscriptions := engine.subscriptions.set topic (entries.erase connection) }
      else none
    else some engine'
  else none

/-- `Engine::on_update_subscription_receive`. -/
def onUpdateSubscriptionReceive (engine : Engine N) (connection : N)
    (request : RequestUpdateSubscription) : Option (Engine N) :=
  if request.isSubscribe then some (engine.subscribe connection request)
  else engine.unsubscribe connection request

/-! ## What the handlers do -/

@[simp] theorem onPrepareReceive_clients (engine : Engine N)
    (ackMemory : ResponsePrepare) (publishMemory : RequestPublish) (connection : P)
    (request : RequestPrepare) (topic : UInt64) (nuzzle : N) :
    (engine.onPrepareReceive ackMemory publishMemory connection request).1.clients
        topic nuzzle =
      engine.clients topic nuzzle := rfl

omit [DecidableEq N] in
@[simp] theorem onPrepareReceive_subscriptions_get (engine : Engine N)
    (ackMemory : ResponsePrepare) (publishMemory : RequestPublish) (connection : P)
    (request : RequestPrepare) (topic : UInt64) :
    (engine.onPrepareReceive ackMemory publishMemory connection request).1.subscriptions.get
        topic =
      engine.subscriptions.get topic := by
  simp [onPrepareReceive]

@[simp] theorem publishOf_key (memory : RequestPublish) (request : RequestPrepare) :
    (publishOf memory request).key = request.key := rfl

/-- A nuzzle connection is listed under a topic at least as often as it has clients
recorded there. -/
def Covered (engine : Engine N) : Prop :=
  ∀ topic connection,
    (engine.clients topic connection).length ≤
      (engine.subscriptions.get topic).count connection

theorem covered_new : Covered (new : Engine N) := by
  intro topic connection
  simp [new, clients]

/-- A topic without an entry has no recorded client, so the branch that opens a topic
drops nothing. -/
theorem Covered.clients_eq_nil {engine : Engine N} (h : engine.Covered) {topic : UInt64}
    (hnone : engine.subscriptions.find? topic = none) (connection : N) :
    engine.clients topic connection = [] := by
  have hle := h topic connection
  rw [Map.get_of_find?_none hnone] at hle
  exact List.length_eq_zero_iff.mp (Nat.le_zero.mp (by simpa using hle))

theorem subscribe_subscriptions_get (engine : Engine N) (connection : N)
    (request : RequestUpdateSubscription) (topic : UInt64) :
    (engine.subscribe connection request).subscriptions.get topic =
      if topic = request.topicId then
        engine.subscriptions.get topic ++ [connection]
      else engine.subscriptions.get topic := by
  unfold subscribe
  by_cases hopen : engine.subscriptions.count request.topicId = 0
  · have hnone := Map.count_eq_zero.mp hopen
    by_cases ht : topic = request.topicId
    · subst ht
      simp [hopen, Map.get_of_find?_none hnone]
    · simp [hopen, ht, Map.get_set_ne]
  · by_cases ht : topic = request.topicId
    · subst ht
      simp [hopen]
    · simp [hopen, ht, Map.get_set_ne]

theorem subscribe_clients {engine : Engine N} (h : engine.Covered) (connection : N)
    (request : RequestUpdateSubscription) (topic : UInt64) (nuzzle : N) :
    (engine.subscribe connection request).clients topic nuzzle =
      if topic = request.topicId ∧ nuzzle = connection then
        engine.clients topic nuzzle ++ [clientId request]
      else engine.clients topic nuzzle := by
  by_cases ht : topic = request.topicId
  · subst ht
    by_cases hopen : engine.subscriptions.count request.topicId = 0
    · have hnil := h.clients_eq_nil (Map.count_eq_zero.mp hopen)
      rw [hnil nuzzle]
      by_cases hn : nuzzle = connection
      · subst hn
        simp [subscribe, hopen, clients]
      · simp [subscribe, hopen, clients, hn, Map.get_set_ne]
    · by_cases hn : nuzzle = connection
      · subst hn
        simp [subscribe, hopen, clients]
      · simp [subscribe, hopen, clients, hn, Map.get_set_ne]
  · by_cases hopen : engine.subscriptions.count request.topicId = 0
    · simp [subscribe, hopen, clients, ht, Map.get_set_ne]
    · simp [subscribe, hopen, clients, ht, Map.get_set_ne]

/-- Everything the unsubscribe branch can do. -/
theorem unsubscribe_eq_some {engine engine' : Engine N} {connection : N}
    {request : RequestUpdateSubscription}
    (h : engine.unsubscribe connection request = some engine') :
    clientId request ∈ engine.clients request.topicId connection ∧
    engine'.messageBuffer = engine.messageBuffer ∧
    (∀ topic nuzzle, engine'.clients topic nuzzle =
      if topic = request.topicId ∧ nuzzle = connection then
        (engine.clients topic nuzzle).erase (clientId request)
      else engine.clients topic nuzzle) ∧
    (∀ topic, engine'.subscriptions.get topic =
      if topic = request.topicId ∧
          ((engine.clients topic connection).erase (clientId request)).length = 0 then
        (engine.subscriptions.get topic).erase connection
      else engine.subscriptions.get topic) := by
  unfold unsubscribe at h
  simp only at h
  split at h
  · rename_i hmem
    have hclients : ∀ topic nuzzle,
        ((engine.clientSubscriptions.set request.topicId
          ((engine.clientSubscriptions.get request.topicId).set connection
            ((engine.clients request.topicId connection).erase (clientId request)))).get
              topic).get nuzzle =
          if topic = request.topicId ∧ nuzzle = connection then
            (engine.clients topic nuzzle).erase (clientId request)
          else engine.clients topic nuzzle := by
      intro topic nuzzle
      by_cases ht : topic = request.topicId
      · subst ht
        by_cases hn : nuzzle = connection
        · subst hn; simp
        · simp [hn, Map.get_set_ne, clients]
      · simp [ht, Map.get_set_ne, clients]
    split at h
    · rename_i hlen
      split at h
      · simp only [Option.some.injEq] at h
        subst h
        refine ⟨hmem, rfl, hclients, fun topic => ?_⟩
        by_cases ht : topic = request.topicId
        · subst ht; simp [hlen]
        · simp [ht, Map.get_set_ne]
      · simp at h
    · rename_i hlen
      simp only [Option.some.injEq] at h
      subst h
      refine ⟨hmem, rfl, hclients, fun topic => ?_⟩
      by_cases ht : topic = request.topicId
      · subst ht; simp [hlen]
      · simp [ht]
  · simp at h

/-- An update subscribes or unsubscribes. -/
theorem onUpdateSubscriptionReceive_cases {engine engine' : Engine N} {connection : N}
    {request : RequestUpdateSubscription}
    (hup : engine.onUpdateSubscriptionReceive connection request = some engine') :
    (request.isSubscribe = true ∧ engine' = engine.subscribe connection request) ∨
      (request.isSubscribe = false ∧ engine.unsubscribe connection request = some engine') := by
  unfold onUpdateSubscriptionReceive at hup
  split at hup
  · rename_i hsub
    exact Or.inl ⟨hsub, (Option.some.inj hup).symm⟩
  · rename_i hsub
    exact Or.inr ⟨Bool.eq_false_iff.mpr hsub, hup⟩

theorem covered_onPrepareReceive {engine : Engine N} (h : engine.Covered)
    (ackMemory : ResponsePrepare) (publishMemory : RequestPublish) (connection : P)
    (request : RequestPrepare) :
    (engine.onPrepareReceive ackMemory publishMemory connection request).1.Covered := by
  intro topic nuzzle
  simpa using h topic nuzzle

theorem covered_onUpdateSubscriptionReceive {engine engine' : Engine N} (h : engine.Covered)
    {connection : N} {request : RequestUpdateSubscription}
    (hup : engine.onUpdateSubscriptionReceive connection request = some engine') :
    engine'.Covered := by
  intro topic nuzzle
  have hle := h topic nuzzle
  rcases onUpdateSubscriptionReceive_cases hup with ⟨-, rfl⟩ | ⟨-, hun⟩
  · rw [subscribe_clients h, subscribe_subscriptions_get]
    by_cases ht : topic = request.topicId
    · by_cases hn : nuzzle = connection
      · subst hn
        simp only [ht, and_self, if_true] at hle ⊢
        simpa [List.count_append] using hle
      · simp only [ht, hn, and_false, if_true, if_false] at hle ⊢
        rw [List.count_append]
        omega
    · simpa [ht] using hle
  · obtain ⟨hmem, -, hclients, hsubs⟩ := unsubscribe_eq_some hun
    rw [hclients, hsubs]
    by_cases ht : topic = request.topicId
    · subst ht
      by_cases hn : nuzzle = connection
      · subst hn
        have hlen := List.length_erase_of_mem hmem
        by_cases hzero : ((engine.clients request.topicId nuzzle).erase
            (clientId request)).length = 0
        · simp [hzero]
        · simp only [hzero, and_false, and_self, if_true, if_false]
          omega
      · -- the entry erased belongs to another connection
        simp only [hn, and_false, if_false, true_and]
        split
        · rwa [List.count_erase_of_ne hn]
        · exact hle
    · simpa [ht] using hle

/-- An update changes one client list, by one client. -/
theorem length_clients_onUpdateSubscriptionReceive {engine engine' : Engine N}
    (h : engine.Covered) {connection : N} {request : RequestUpdateSubscription}
    (hup : engine.onUpdateSubscriptionReceive connection request = some engine')
    (topic : UInt64) (nuzzle : N) :
    if topic = request.topicId ∧ nuzzle = connection then
      if request.isSubscribe then
        (engine'.clients topic nuzzle).length = (engine.clients topic nuzzle).length + 1
      else (engine'.clients topic nuzzle).length + 1 = (engine.clients topic nuzzle).length
    else engine'.clients topic nuzzle = engine.clients topic nuzzle := by
  rcases onUpdateSubscriptionReceive_cases hup with ⟨hsub, rfl⟩ | ⟨hsub, hun⟩
  · rw [subscribe_clients h]
    by_cases hboth : topic = request.topicId ∧ nuzzle = connection
    · simp [hboth, hsub]
    · simp [hboth]
  · obtain ⟨hmem, -, hclients, -⟩ := unsubscribe_eq_some hun
    rw [hclients]
    by_cases hboth : topic = request.topicId ∧ nuzzle = connection
    · obtain ⟨rfl, rfl⟩ := hboth
      have hpos := List.length_pos_of_mem hmem
      have hlen := List.length_erase_of_mem hmem
      simp only [and_self, if_true, hsub, Bool.false_eq_true, if_false]
      omega
    · simp [hboth]

theorem onUpdateSubscriptionReceive_messageBuffer {engine engine' : Engine N}
    {connection : N} {request : RequestUpdateSubscription}
    (hup : engine.onUpdateSubscriptionReceive connection request = some engine') :
    engine'.messageBuffer = engine.messageBuffer := by
  rcases onUpdateSubscriptionReceive_cases hup with ⟨-, rfl⟩ | ⟨-, hun⟩
  · unfold subscribe
    by_cases hopen : engine.subscriptions.count request.topicId = 0 <;> simp [hopen]
  · exact (unsubscribe_eq_some hun).2.1

/-- An update touches the subscriptions of its own topic only. -/
theorem onUpdateSubscriptionReceive_subscriptions_of_ne {engine engine' : Engine N}
    {connection : N} {request : RequestUpdateSubscription}
    (hup : engine.onUpdateSubscriptionReceive connection request = some engine')
    {topic : UInt64} (ht : topic ≠ request.topicId) :
    engine'.subscriptions.get topic = engine.subscriptions.get topic := by
  rcases onUpdateSubscriptionReceive_cases hup with ⟨-, rfl⟩ | ⟨-, hun⟩
  · rw [subscribe_subscriptions_get, if_neg ht]
  · rw [(unsubscribe_eq_some hun).2.2.2, if_neg fun hboth => ht hboth.1]

/-- Of an update only its topic, its action and its client count. -/
theorem onUpdateSubscriptionReceive_congr (engine : Engine N) (connection : N)
    {request request' : RequestUpdateSubscription} (htopic : request.topicId = request'.topicId)
    (haction : request.isSubscribe = request'.isSubscribe)
    (hclient : clientId request = clientId request') :
    engine.onUpdateSubscriptionReceive connection request =
      engine.onUpdateSubscriptionReceive connection request' := by
  simp only [onUpdateSubscriptionReceive, subscribe, unsubscribe, htopic, haction, hclient]

/-! ## One entry for each nuzzle that has a client -/

/-- A nuzzle connection is listed under a topic once if it has clients recorded there, and
not at all if it has none. -/
def ListsExactly (engine : Engine N) : Prop :=
  ∀ topic connection, (engine.subscriptions.get topic).count connection =
    if engine.clients topic connection = [] then 0 else 1

theorem listsExactly_new : ListsExactly (new : Engine N) := by
  intro topic connection
  simp [new, clients]

/-- A subscribe keeps the law exactly when it brings its connection's first client. -/
theorem listsExactly_subscribe_iff {engine : Engine N} (hcov : engine.Covered)
    (h : engine.ListsExactly) (connection : N) (request : RequestUpdateSubscription) :
    (engine.subscribe connection request).ListsExactly ↔
      engine.clients request.topicId connection = [] := by
  constructor
  · intro hafter
    have hold := h request.topicId connection
    have hnew := hafter request.topicId connection
    have hclients : (engine.subscribe connection request).clients request.topicId connection ≠
        [] := by simp [subscribe_clients hcov]
    rw [if_neg hclients, subscribe_subscriptions_get, if_pos rfl, List.count_append,
      List.count_singleton_self] at hnew
    -- the connection was not listed, so it had no client
    by_contra hne
    rw [if_neg hne] at hold
    omega
  · intro hfirst topic nuzzle
    have hold := h topic nuzzle
    rw [subscribe_subscriptions_get, subscribe_clients hcov]
    by_cases ht : topic = request.topicId
    · subst ht
      by_cases hn : nuzzle = connection
      · subst hn
        rw [if_pos hfirst] at hold
        simp [hold]
      · simp only [hn, and_false, if_true, if_false]
        have hnone : List.count nuzzle [connection] = 0 :=
          List.count_eq_zero_of_not_mem (by simpa using hn)
        rw [List.count_append, hold, hnone, Nat.add_zero]
    · simpa [ht] using hold

/-- An unsubscribe keeps the law: the entry goes with the last client. -/
theorem ListsExactly.unsubscribe {engine engine' : Engine N} (h : engine.ListsExactly)
    {connection : N} {request : RequestUpdateSubscription}
    (hun : engine.unsubscribe connection request = some engine') : engine'.ListsExactly := by
  obtain ⟨hmem, -, hclients, hsubs⟩ := unsubscribe_eq_some hun
  have hne : engine.clients request.topicId connection ≠ [] := List.ne_nil_of_mem hmem
  have hself : engine'.clients request.topicId connection =
      (engine.clients request.topicId connection).erase (clientId request) := by
    rw [hclients, if_pos ⟨rfl, rfl⟩]
  intro topic nuzzle
  have hold := h topic nuzzle
  by_cases hboth : topic = request.topicId ∧ nuzzle = connection
  · obtain ⟨rfl, rfl⟩ := hboth
    rw [if_neg hne] at hold
    by_cases hlast : (engine.clients request.topicId nuzzle).erase (clientId request) = []
    · rw [hself, if_pos hlast, hsubs, if_pos ⟨rfl, by rw [hlast]; rfl⟩,
        List.count_erase_self, hold]
    · rw [hself, if_neg hlast, hsubs,
        if_neg (fun hgone => hlast (List.length_eq_zero_iff.mp hgone.2)), hold]
  · have hsame : engine'.clients topic nuzzle = engine.clients topic nuzzle := by
      rw [hclients, if_neg hboth]
    rw [hsame, ← hold, hsubs]
    split
    · rename_i hgone
      exact List.count_erase_of_ne fun hn => hboth ⟨hgone.1, hn⟩
    · rfl

theorem listsExactly_onUpdateSubscriptionReceive_iff {engine engine' : Engine N}
    (hcov : engine.Covered) (h : engine.ListsExactly) {connection : N}
    {request : RequestUpdateSubscription}
    (hup : engine.onUpdateSubscriptionReceive connection request = some engine') :
    engine'.ListsExactly ↔
      (request.isSubscribe = true → engine.clients request.topicId connection = []) := by
  rcases onUpdateSubscriptionReceive_cases hup with ⟨hsub, rfl⟩ | ⟨hsub, hun⟩
  · simp only [hsub, true_implies]
    exact listsExactly_subscribe_iff hcov h connection request
  · exact iff_of_true (h.unsubscribe hun) fun hs => absurd hs (Bool.eq_false_iff.mp hsub)

/-- An update is defined exactly when it subscribes or takes back a recorded client. -/
theorem onUpdateSubscriptionReceive_isSome_iff {engine : Engine N} (hcov : engine.Covered)
    (connection : N) (request : RequestUpdateSubscription) :
    (engine.onUpdateSubscriptionReceive connection request).isSome = true ↔
      (request.isSubscribe = true ∨
        clientId request ∈ engine.clients request.topicId connection) := by
  unfold onUpdateSubscriptionReceive
  by_cases hsub : request.isSubscribe = true
  · simp [hsub]
  · simp only [hsub, Bool.false_eq_true, if_false, false_or]
    unfold unsubscribe
    by_cases hmem : clientId request ∈ engine.clients request.topicId connection
    · -- the connection has a client, so it is listed
      have hle := hcov request.topicId connection
      have hlen := List.length_pos_of_mem hmem
      have hlisted : connection ∈ engine.subscriptions.get request.topicId :=
        List.count_pos_iff.mp (by omega)
      simp only [hmem, if_true, hlisted]
      split <;> simp
    · simp [hmem]

/-! ## The connections an engine remembers -/

/-- A nuzzle connection is a key of the topic's client subscriptions. -/
def Recorded (engine : Engine N) (topic : UInt64) (connection : N) : Prop :=
  ∃ clients, (engine.clientSubscriptions.get topic).find? connection = some clients

theorem recorded_of_mem_clients {engine : Engine N} {topic : UInt64} {connection : N}
    {client : UInt64} (h : client ∈ engine.clients topic connection) :
    engine.Recorded topic connection := by
  unfold clients at h
  cases hfind : (engine.clientSubscriptions.get topic).find? connection with
  | none =>
      rw [Map.get_of_find?_none hfind] at h
      simp at h
  | some listed => exact ⟨listed, hfind⟩

/-- A subscribe makes its own connection a key and no other. -/
theorem recorded_of_subscribe {engine : Engine N} {connection : N}
    {request : RequestUpdateSubscription} {topic : UInt64} {nuzzle : N}
    (h : (engine.subscribe connection request).Recorded topic nuzzle) :
    engine.Recorded topic nuzzle ∨ nuzzle = connection := by
  obtain ⟨listed, hfind⟩ := h
  by_cases hn : nuzzle = connection
  · exact Or.inr hn
  · refine Or.inl ?_
    unfold subscribe at hfind
    by_cases hopen : engine.subscriptions.count request.topicId = 0
    · by_cases ht : topic = request.topicId
      · subst ht
        simp [hopen, Map.find?_set, hn] at hfind
      · exact ⟨listed, by simpa [hopen, Map.get_set, ht] using hfind⟩
    · by_cases ht : topic = request.topicId
      · subst ht
        exact ⟨listed, by simpa [hopen, Map.find?_set, hn] using hfind⟩
      · exact ⟨listed, by simpa [hopen, Map.get_set, ht] using hfind⟩

/-- An unsubscribe makes no connection a key. -/
theorem recorded_of_unsubscribe {engine engine' : Engine N} {connection : N}
    {request : RequestUpdateSubscription}
    (hun : engine.unsubscribe connection request = some engine') {topic : UInt64} {nuzzle : N}
    (h : engine'.Recorded topic nuzzle) : engine.Recorded topic nuzzle := by
  have hself := recorded_of_mem_clients (unsubscribe_eq_some hun).1
  have hset : ∃ rest, engine'.clientSubscriptions = engine.clientSubscriptions.set
      request.topicId ((engine.clientSubscriptions.get request.topicId).set connection rest) := by
    unfold unsubscribe at hun
    simp only at hun
    split at hun
    · split at hun
      · split at hun
        · exact ⟨_, congrArg clientSubscriptions (Option.some.inj hun).symm⟩
        · simp at hun
      · exact ⟨_, congrArg clientSubscriptions (Option.some.inj hun).symm⟩
    · simp at hun
  obtain ⟨rest, hset⟩ := hset
  obtain ⟨listed, hfind⟩ := h
  rw [hset, Map.get_set] at hfind
  by_cases ht : topic = request.topicId
  · subst ht
    rw [if_pos rfl, Map.find?_set] at hfind
    by_cases hn : nuzzle = connection
    · exact hn ▸ hself
    · rw [if_neg hn] at hfind
      exact ⟨listed, hfind⟩
  · rw [if_neg ht] at hfind
    exact ⟨listed, hfind⟩

end Engine

end Firehose.Node
