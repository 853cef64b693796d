import Firehose.Cluster.Subscriptions
import Mathlib.Data.List.Forall2

set_option autoImplicit false

/-!
# What an engine stores and sends

Over any run of an engine: the buffer holds, under each key, the last prepare some pump
sent with that key; what goes out to a nuzzle is a relayed prepare; and a nuzzle
connection has as many recorded clients as its update requests balance to.
-/

namespace Firehose.Cluster

open Firehose.Api Firehose.Foundation Firehose.Node
open Function (update)
open Channel (addressedTo)

/-- The prepares of a history that carry a key. -/
def withKey (key : Key) (ms : List RequestPrepareProto) : List RequestPrepareProto :=
  ms.filter fun m => decide (m.key = key)

theorem withKey_snoc_self (ms : List RequestPrepareProto) (m : RequestPrepareProto) :
    withKey m.key (ms ++ [m]) = withKey m.key ms ++ [m] := by
  simp [withKey]

theorem withKey_snoc_ne {key : Key} (ms : List RequestPrepareProto)
    {m : RequestPrepareProto} (h : key ≠ m.key) : withKey key (ms ++ [m]) = withKey key ms := by
  simp [withKey, Ne.symm h]

namespace EngineNode

variable {P N : Type} [DecidableEq P] [DecidableEq N]

/-! ## The message buffer -/

/-- What the message buffer holds, in terms of the prepares handled. -/
structure Stored (node : EngineNode P N) : Prop where
  /-- Every entry is the last prepare with its key from some pump. -/
  last : ∀ key r, node.engine.messageBuffer.find? key = some r →
    ∃ p m, (withKey key (node.prepares p)).getLast? = some m ∧ r = m.get
  /-- Every prepare handled has left an entry under its key. -/
  kept : ∀ p, ∀ m ∈ node.prepares p, ∃ r, node.engine.messageBuffer.find? m.key = some r

omit [DecidableEq P] [DecidableEq N] in
theorem stored_start : Stored (start : EngineNode P N) where
  last := by intro key r h; simp [start, Engine.new] at h
  kept := by intro p m h; simp [start] at h

/-- A prepare replaces the entry under its key, whatever that was. -/
theorem messageBuffer_next_prepare {node node' : EngineNode P N} {p : P}
    {ackMemory : ResponsePrepare} {publishMemory : RequestPublish} {m : RequestPrepareProto}
    (h : Steps next node (.prepare p ackMemory publishMemory m) node') (key : Key) :
    node'.engine.messageBuffer.find? key =
      if key = m.key then some m.get else node.engine.messageBuffer.find? key := by
  simp only [Steps, next, Option.some.injEq] at h
  subst h
  by_cases hk : key = m.key
  · subst hk
    rw [if_pos rfl]
    exact Map.find?_set_self _ _ _
  · rw [if_neg hk]
    exact Map.find?_set_ne _ _ hk

theorem prepares_next_prepare {node node' : EngineNode P N} {p : P}
    {ackMemory : ResponsePrepare} {publishMemory : RequestPublish} {m : RequestPrepareProto}
    (h : Steps next node (.prepare p ackMemory publishMemory m) node') :
    node'.prepares = update node.prepares p (node.prepares p ++ [m]) := by
  simp only [Steps, next, Option.some.injEq] at h
  subst h
  rfl

theorem mem_prepares_next_prepare {node node' : EngineNode P N} {p : P}
    {ackMemory : ResponsePrepare} {publishMemory : RequestPublish} {m : RequestPrepareProto}
    (h : Steps next node (.prepare p ackMemory publishMemory m) node') {p' : P}
    {m' : RequestPrepareProto} :
    m' ∈ node'.prepares p' ↔ m' ∈ node.prepares p' ∨ (p' = p ∧ m' = m) := by
  rw [prepares_next_prepare h]
  by_cases hp : p' = p
  · subst hp
    simp
  · simp [hp]

theorem stored_prepare {node : EngineNode P N} (hinv : Stored node) {p : P}
    {ackMemory : ResponsePrepare} {publishMemory : RequestPublish} {m : RequestPrepareProto}
    {node' : EngineNode P N}
    (h : Steps next node (.prepare p ackMemory publishMemory m) node') : Stored node' := by
  refine ⟨fun key r hr => ?_, fun p' m' hm' => ?_⟩
  · rw [messageBuffer_next_prepare h] at hr
    rw [prepares_next_prepare h]
    split at hr
    · rename_i hk
      subst hk
      exact ⟨p, m, by simp [withKey_snoc_self], (Option.some.inj hr).symm⟩
    · rename_i hk
      obtain ⟨p', m', hlast, rfl⟩ := hinv.last key r hr
      refine ⟨p', m', ?_, rfl⟩
      by_cases hp : p' = p
      · subst hp
        simpa [withKey_snoc_ne _ hk] using hlast
      · simpa [hp] using hlast
  · rw [messageBuffer_next_prepare h]
    split
    · exact ⟨_, rfl⟩
    · rename_i hk
      rcases (mem_prepares_next_prepare h).mp hm' with hold | ⟨-, rfl⟩
      · exact hinv.kept p' m' hold
      · exact absurd rfl hk

theorem update_next {node node' : EngineNode P N} {n : N}
    {m : RequestUpdateSubscriptionProto} (h : Steps next node (.update n m) node') :
    ∃ engine, node.engine.onUpdateSubscriptionReceive n m.get = some engine ∧
      node' = { node with
        engine := engine
        updates := update node.updates n (node.updates n ++ [m]) } := by
  simp only [Steps, next] at h
  split at h
  · simp at h
  · rename_i engine hup
    exact ⟨engine, hup, (Option.some.inj h).symm⟩

/-- Accepts and updates leave the buffer and the histories of messages alone. -/
theorem messages_next {node node' : EngineNode P N} {event : EngineEvent P N}
    (h : Steps next node event node')
    (hev : ∀ p ackMemory publishMemory m, event ≠ .prepare p ackMemory publishMemory m) :
    node'.engine.messageBuffer = node.engine.messageBuffer ∧
      node'.prepares = node.prepares ∧ node'.fanouts = node.fanouts ∧
      node'.acks = node.acks := by
  cases event with
  | prepare p ackMemory publishMemory m => exact absurd rfl (hev p ackMemory publishMemory m)
  | accept p request =>
      simp only [Steps, next, Option.some.injEq] at h
      subst h
      exact ⟨rfl, rfl, rfl, rfl⟩
  | update n m =>
      obtain ⟨engine, hup, rfl⟩ := update_next h
      exact ⟨Engine.onUpdateSubscriptionReceive_messageBuffer hup, rfl, rfl, rfl⟩

theorem stored_next {node node' : EngineNode P N} {event : EngineEvent P N}
    (hinv : Stored node) (h : Steps next node event node') : Stored node' := by
  cases event with
  | prepare p ackMemory publishMemory m => exact stored_prepare hinv h
  | accept | update =>
      obtain ⟨hbuf, hprep, -, -⟩ := messages_next h (by simp)
      refine ⟨?_, ?_⟩
      · simpa [hbuf, hprep] using hinv.last
      · simpa [hbuf, hprep] using hinv.kept

theorem stored_run {trace : List (EngineNode P N × EngineEvent P N)} {node : EngineNode P N}
    (h : Run (Steps next) start trace node) : Stored node :=
  h.keeps stored_start
    fun _ _ _ hinv hstep => stored_next hinv hstep

/-! ## The acknowledgements -/

/-- The response a request is owed: a success under the key of the request. -/
def Acknowledges (m : RequestPrepareProto) (ack : ResponsePrepareProto) : Prop :=
  (Pump.MsgPrepareRspRx.get ack).header.status = firehoseSuccess ∧
    (ack.topicId, ack.globalId) = m.key

/-- Every prepare handled has been answered, on its connection and in order. -/
def Answered (node : EngineNode P N) : Prop :=
  ∀ p, List.Forall₂ Acknowledges (node.prepares p) (node.acks p)

theorem answered_next {node node' : EngineNode P N} {event : EngineEvent P N}
    (hinv : Answered node) (h : Steps next node event node') : Answered node' := by
  cases event with
  | prepare p ackMemory publishMemory m =>
      simp only [Steps, next, Option.some.injEq] at h
      subst h
      intro p'
      by_cases hp : p' = p
      · subst hp
        simp only [Function.update_self, Engine.onPrepareReceive, addressedTo, List.map_cons,
          List.map_nil, decide_true, List.filter_cons_of_pos, List.filter_nil]
        exact List.rel_append (hinv p') (.cons ⟨rfl, rfl⟩ .nil)
      · have hne : ¬ p = p' := fun heq => hp heq.symm
        simpa [hp, hne, Engine.onPrepareReceive, addressedTo] using hinv p'
  | accept | update =>
      obtain ⟨-, hprep, -, hacks⟩ := messages_next h (by simp)
      simpa [Answered, hprep, hacks] using hinv

theorem answered_run {trace : List (EngineNode P N × EngineEvent P N)}
    {node : EngineNode P N} (h : Run (Steps next) start trace node) : Answered node :=
  h.keeps (fun _ => List.Forall₂.nil)
    fun _ _ _ hinv hstep => answered_next hinv hstep

/-! ## The copies -/

/-- What a prepare pushes on a nuzzle connection: one copy for every entry the topic has
for it. -/
theorem fanouts_next_prepare {node node' : EngineNode P N} {p : P}
    {ackMemory : ResponsePrepare} {publishMemory : RequestPublish} {m : RequestPrepareProto}
    (h : Steps next node (.prepare p ackMemory publishMemory m) node') (n : N) :
    node'.fanouts n = node.fanouts n ++
      List.replicate ((node.engine.subscriptions.get m.topicId).count n)
        (Engine.MsgPublishReqTx.set (Engine.publishOf publishMemory m.get)) := by
  simp only [Steps, next, Option.some.injEq] at h
  subst h
  simp only [Engine.onPrepareReceive, List.map_map]
  congr 1
  exact Channel.addressedTo_map n (node.engine.subscriptions.get m.topicId) fun _ =>
    Engine.MsgPublishReqTx.set (Engine.publishOf publishMemory m.get)

/-- Every message sent to a nuzzle is the relay of a prepare handled. -/
def Relayed (node : EngineNode P N) : Prop :=
  ∀ n, ∀ m ∈ node.fanouts n, ∃ p, ∃ m' ∈ node.prepares p,
    m.key = m'.key ∧ m.content = m'.content

omit [DecidableEq P] [DecidableEq N] in
theorem relayed_start : Relayed (start : EngineNode P N) := by
  intro n m h
  simp [start] at h

theorem relayed_next {node node' : EngineNode P N} {event : EngineEvent P N}
    (hinv : Relayed node) (h : Steps next node event node') : Relayed node' := by
  cases event with
  | prepare p ackMemory publishMemory m =>
      intro n m' hm'
      rw [fanouts_next_prepare h, List.mem_append] at hm'
      rcases hm' with hold | hnew
      · obtain ⟨p', m₀, hm₀, hsame⟩ := hinv n m' hold
        exact ⟨p', m₀, (mem_prepares_next_prepare h).mpr (Or.inl hm₀), hsame⟩
      · rw [(List.mem_replicate.mp hnew).2]
        exact ⟨p, m, (mem_prepares_next_prepare h).mpr (Or.inr ⟨rfl, rfl⟩), rfl, rfl⟩
  | accept | update =>
      obtain ⟨-, hprep, hfan, -⟩ := messages_next h (by simp)
      simpa [Relayed, hprep, hfan] using hinv

theorem relayed_run {trace : List (EngineNode P N × EngineEvent P N)}
    {node : EngineNode P N} (h : Run (Steps next) start trace node) : Relayed node :=
  h.keeps relayed_start
    fun _ _ _ hinv hstep => relayed_next hinv hstep

/-- An engine forgets no update it has handled. -/
theorem length_updates_next {node node' : EngineNode P N} {event : EngineEvent P N}
    (h : Steps next node event node') (n : N) :
    (node.updates n).length ≤ (node'.updates n).length := by
  cases event with
  | prepare p ackMemory publishMemory m =>
      simp only [Steps, next, Option.some.injEq] at h
      subst h
      exact Nat.le_refl _
  | accept p request =>
      simp only [Steps, next, Option.some.injEq] at h
      subst h
      exact Nat.le_refl _
  | update n' m =>
      obtain ⟨engine, -, rfl⟩ := update_next h
      by_cases hn : n = n'
      · subst hn
        simp
      · simp [hn]

/-! ## Counting the copies -/

theorem copies_fanouts_next_prepare {node node' : EngineNode P N} {p : P}
    {ackMemory : ResponsePrepare} {publishMemory : RequestPublish} {m : RequestPrepareProto}
    (h : Steps next node (.prepare p ackMemory publishMemory m) node') (n : N) (key : Key) :
    copies key (node'.fanouts n) = copies key (node.fanouts n) +
      if m.key = key then (node.engine.subscriptions.get key.1).count n else 0 := by
  rw [fanouts_next_prepare h, copies_append, copies_replicate, RequestPublish.key_set,
    Engine.publishOf_key]
  congr 1
  by_cases hk : m.key = key
  · subst hk
    have htopic : m.topicId = m.key.1 := rfl
    rw [if_pos rfl, htopic]
    exact if_pos rfl
  · have hk' : ¬ m.get.key = key := hk
    rw [if_neg hk, if_neg hk']

/-- A prepare that is handled finds each nuzzle listed at most once under its topic. -/
def ListsOnce (node : EngineNode P N) (event : EngineEvent P N) : Prop :=
  ∀ m ∈ event.prepared, (node.engine.subscriptions.get m.topicId).Nodup

instance (node : EngineNode P N) (event : EngineEvent P N) : Decidable (ListsOnce node event) :=
  inferInstanceAs
    (Decidable (∀ m ∈ event.prepared, (node.engine.subscriptions.get m.topicId).Nodup))

section Counting

variable [Fintype P]

/-- Number of prepares with a key an engine has handled. -/
def prepared (node : EngineNode P N) (key : Key) : Nat :=
  ∑ p, (node.prepares p).countP fun m => decide (m.key = key)

theorem prepared_next_prepare {node node' : EngineNode P N} {p : P}
    {ackMemory : ResponsePrepare} {publishMemory : RequestPublish} {m : RequestPrepareProto}
    (h : Steps next node (.prepare p ackMemory publishMemory m) node') (key : Key) :
    node'.prepared key = node.prepared key + if m.key = key then 1 else 0 := by
  unfold prepared
  rw [prepares_next_prepare h]
  have hsum := sum_countP_update_append (fun m => decide (m.key = key)) node.prepares p m
  simpa using hsum

/-- An engine that never lists a nuzzle twice sends it no more copies of a message than
it was sent prepares. -/
theorem copies_le_prepared_run {trace : List (EngineNode P N × EngineEvent P N)}
    {node : EngineNode P N} (h : Run (Steps next) start trace node)
    (honce : ∀ x ∈ trace, ListsOnce x.1 x.2) (n : N) (key : Key) :
    copies key (node.fanouts n) ≤ node.prepared key := by
  refine h.invariant (I := fun node => copies key (node.fanouts n) ≤ node.prepared key)
    honce (by simp [start]) ?_
  intro node event node' hle hone hstep
  cases event with
  | prepare p ackMemory publishMemory m =>
      rw [copies_fanouts_next_prepare hstep, prepared_next_prepare hstep]
      by_cases hk : m.key = key
      · subst hk
        have hcount : (node.engine.subscriptions.get m.key.1).count n ≤ 1 :=
          List.nodup_iff_count_le_one.mp (hone m rfl) n
        simp only [if_true]
        omega
      · simpa [hk] using hle
  | accept | update =>
      obtain ⟨-, hprep, hfan, -⟩ := messages_next hstep (by simp)
      simpa [prepared, hprep, hfan] using hle

end Counting

/-- A prepare with the key has gone out to the nuzzle at least once. -/
def Relays (n : N) (key : Key) (node : EngineNode P N) : Prop :=
  ∀ p, (∃ m ∈ node.prepares p, m.key = key) → 0 < copies key (node.fanouts n)

/-- While an engine lists a nuzzle, every prepare it handles goes out to it. -/
theorem relays_run {trace : List (EngineNode P N × EngineEvent P N)}
    {node₀ node : EngineNode P N} (h : Run (Steps next) node₀ trace node) {n : N} {key : Key}
    (hinit : Relays n key node₀)
    (hlisted : ∀ x ∈ trace, n ∈ x.1.engine.subscriptions.get key.1) :
    Relays n key node := by
  refine h.invariant (C := fun node _ => n ∈ node.engine.subscriptions.get key.1)
    (I := Relays n key) hlisted hinit ?_
  intro node event node' hinv hmem hstep
  cases event with
  | prepare p ackMemory publishMemory m =>
      rintro p' ⟨m', hm', hkey⟩
      rw [copies_fanouts_next_prepare hstep]
      by_cases hk : m.key = key
      · have hcount := List.count_pos_iff.mpr hmem
        rw [if_pos hk]
        omega
      · -- another key, so the prepare was there before
        rcases (mem_prepares_next_prepare hstep).mp hm' with hold | ⟨-, rfl⟩
        · have hpos := hinv p' ⟨m', hold, hkey⟩
          omega
        · exact absurd hkey hk
  | accept | update =>
      obtain ⟨-, hprep, hfan, -⟩ := messages_next hstep (by simp)
      simpa [Relays, hprep, hfan] using hinv

/-! ## The clients -/

/-- A nuzzle connection has one client for each unit its update requests balance to, and
is listed at least that often. -/
structure Balanced (node : EngineNode P N) : Prop where
  covered : node.engine.Covered
  clients_eq : ∀ topic n,
    ((node.engine.clients topic n).length : Int) = balance topic (node.updates n)

omit [DecidableEq P] in
theorem balanced_start : Balanced (start : EngineNode P N) where
  covered := Engine.covered_new
  clients_eq := by intro topic n; simp [start, Engine.new, Engine.clients]

theorem balanced_next {node node' : EngineNode P N} {event : EngineEvent P N}
    (hinv : Balanced node) (h : Steps next node event node') : Balanced node' := by
  cases event with
  | prepare p ackMemory publishMemory m =>
      simp only [Steps, next, Option.some.injEq] at h
      subst h
      exact
        { covered := Engine.covered_onPrepareReceive hinv.covered ackMemory publishMemory p _
          clients_eq := hinv.clients_eq }
  | accept p request =>
      simp only [Steps, next, Option.some.injEq] at h
      subst h
      exact { covered := hinv.covered, clients_eq := hinv.clients_eq }
  | update n m =>
      obtain ⟨engine, hup, rfl⟩ := update_next h
      refine ⟨Engine.covered_onUpdateSubscriptionReceive hinv.covered hup, ?_⟩
      intro topic n'
      have hlen :=
        Engine.length_clients_onUpdateSubscriptionReceive hinv.covered hup topic n'
      have hold := hinv.clients_eq topic n'
      by_cases hn : n' = n
      · subst hn
        show ((engine.clients topic n').length : Int) =
          balance topic (update node.updates n' (node.updates n' ++ [m]) n')
        rw [Function.update_self, balance_snoc, ← hold]
        unfold weight
        by_cases ht : topic = m.get.topicId
        · subst ht
          simp only [and_self, if_true] at hlen ⊢
          split at hlen
          · rename_i hs
            simp [hs, hlen]
          · rename_i hs
            simp only [hs, Bool.false_eq_true, if_false]
            omega
        · simp only [ht, false_and, if_false] at hlen
          simp [hlen, Ne.symm ht]
      · simp only [hn, and_false, if_false] at hlen
        simpa [hn, hlen] using hold

theorem balanced_run {trace : List (EngineNode P N × EngineEvent P N)}
    {node : EngineNode P N} (h : Run (Steps next) start trace node) : Balanced node :=
  h.keeps balanced_start
    fun _ _ _ hinv hstep => balanced_next hinv hstep

omit [DecidableEq P] in
/-- A nuzzle whose requests balance to something is listed. -/
theorem Balanced.mem_subscriptions {node : EngineNode P N} (h : Balanced node)
    {topic : UInt64} {n : N} (hpos : 0 < balance topic (node.updates n)) :
    n ∈ node.engine.subscriptions.get topic := by
  have hlen := h.clients_eq topic n
  have hle := h.covered topic n
  exact List.count_pos_iff.mp (by omega)

end EngineNode

end Firehose.Cluster
