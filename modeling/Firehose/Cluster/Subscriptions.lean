import Firehose.Cluster.NuzzleRun
import Mathlib.Algebra.Order.Ring.Int
import Mathlib.Tactic.Ring

set_option autoImplicit false

/-!
# Subscriptions at a nuzzle and at an engine

The balance of a history of update requests is the number of subscribes in it minus the
number of unsubscribes.  A nuzzle keeps the balance of what it forwards to an engine
equal to the number of entries it has itself, from the moment the engine is connected;
an engine keeps one client for each unit of the balance of what it has handled.
-/

namespace Firehose.Cluster

open Firehose.Api Firehose.Foundation Firehose.Node
open Function (update)
open Channel (addressedTo)

/-- What one update request adds to the balance of a topic. -/
def weight (topic : UInt64) (m : RequestUpdateSubscriptionProto) : Int :=
  if m.get.topicId = topic then if m.get.isSubscribe then 1 else -1 else 0

/-- Number of subscribe requests for a topic in a history. -/
def subscribes (topic : UInt64) (ms : List RequestUpdateSubscriptionProto) : Nat :=
  ms.countP fun m => decide (m.get.topicId = topic) && m.get.isSubscribe

/-- Number of unsubscribe requests for a topic in a history. -/
def unsubscribes (topic : UInt64) (ms : List RequestUpdateSubscriptionProto) : Nat :=
  ms.countP fun m => decide (m.get.topicId = topic) && !m.get.isSubscribe

/-- Subscribes minus unsubscribes for a topic in a history. -/
def balance (topic : UInt64) (ms : List RequestUpdateSubscriptionProto) : Int :=
  subscribes topic ms - unsubscribes topic ms

@[simp] theorem balance_nil (topic : UInt64) : balance topic [] = 0 := rfl

theorem balance_snoc (topic : UInt64) (ms : List RequestUpdateSubscriptionProto)
    (m : RequestUpdateSubscriptionProto) :
    balance topic (ms ++ [m]) = balance topic ms + weight topic m := by
  unfold balance subscribes unsubscribes weight
  by_cases ht : m.get.topicId = topic
  · by_cases hs : m.get.isSubscribe = true
    · simp [List.countP_append, ht, hs]
      ring
    · simp [List.countP_append, ht, hs]
      ring
  · simp [List.countP_append, ht]

/-! ## The nuzzle -/

namespace NuzzleNode

variable {E C : Type} [DecidableEq E] [DecidableEq C]

/-- Number of entries of a topic's subscriptions. -/
def live (node : NuzzleNode E C) (topic : UInt64) : Nat :=
  (node.nuzzle.subscriptions.get topic).length

/-- An engine is connected at most once, and a peer that is not connected has been sent
nothing. -/
structure Wired (node : NuzzleNode E C) : Prop where
  nodup : node.nuzzle.engineConnections.Nodup
  unconnected : ∀ e, e ∉ node.nuzzle.engineConnections → node.updates e = []

omit [DecidableEq E] [DecidableEq C] in
theorem wired_start (groupSize : UInt16) : Wired (start groupSize : NuzzleNode E C) where
  nodup := List.nodup_nil
  unconnected := fun _ _ => rfl

/-- Everything a step can do to the connections. -/
theorem connect_next {node node' : NuzzleNode E C} {e : E}
    (h : Steps next node (.connect e) node') :
    e ∉ node.nuzzle.engineConnections ∧
      node' = { node with nuzzle := node.nuzzle.connectToEngine e } := by
  simp only [Steps, next] at h
  split at h
  · simp at h
  · rename_i hfresh
    exact ⟨hfresh, (Option.some.inj h).symm⟩

/-- What an update pushes on each engine connection: one request on the same topic with
the same meaning, as often as the engine is listed. -/
theorem updates_next_update {node node' : NuzzleNode E C} {c : C}
    {memory : E → RequestUpdateSubscription} {m : RequestUpdateSubscriptionProto}
    (h : Steps next node (.update c memory m) node') :
    node'.nuzzle.engineConnections = node.nuzzle.engineConnections ∧
    (∀ e, ∃ sent : RequestUpdateSubscriptionProto,
      (∀ topic, weight topic sent = weight topic m) ∧
      node'.updates e = node.updates e ++
        List.replicate (node.nuzzle.engineConnections.count e) sent) ∧
    (∀ topic, topic ≠ m.topicId →
      node'.nuzzle.subscriptions.get topic = node.nuzzle.subscriptions.get topic) ∧
    (if m.get.isSubscribe then
      node'.nuzzle.subscriptions.get m.topicId =
        node.nuzzle.subscriptions.get m.topicId ++ [c]
    else
      c ∈ node.nuzzle.subscriptions.get m.topicId ∧
      node'.nuzzle.subscriptions.get m.topicId =
        (node.nuzzle.subscriptions.get m.topicId).erase c) := by
  simp only [Steps, next] at h
  split at h
  · simp at h
  · rename_i nuzzle out hup
    obtain ⟨-, hconns, -, hout, hother, hown⟩ :=
      Nuzzle.onUpdateSubscriptionReceive_eq_some hup
    simp only [Option.some.injEq] at h
    subst h
    refine ⟨hconns, fun e => ?_, hother, hown⟩
    refine ⟨Nuzzle.MsgUpdateSubscriptionReqTx.set
      { RequestUpdateSubscription.declared (memory e) with
        topicId := m.topicId
        action := if m.get.isSubscribe then 1 else 0 }, fun topic => ?_, ?_⟩
    · unfold weight
      rw [RequestUpdateSubscription.get_set_topicId,
        RequestUpdateSubscription.get_set_isSubscribe]
      have htopic : m.get.topicId = m.topicId := rfl
      by_cases hs : m.get.isSubscribe = true
      · simp [RequestUpdateSubscription.isSubscribe, htopic]
      · simp [RequestUpdateSubscription.isSubscribe, htopic]
    · simp only [hout, Nuzzle.forward, List.map_map]
      congr 1
      exact Channel.addressedTo_map e node.nuzzle.engineConnections fun e =>
        Nuzzle.MsgUpdateSubscriptionReqTx.set
          { RequestUpdateSubscription.declared (memory e) with
            topicId := m.topicId
            action := if m.get.isSubscribe then 1 else 0 }

theorem updates_next_publish {node node' : NuzzleNode E C} {e : E}
    {m : RequestPublishProto} (h : Steps next node (.publish e m) node') :
    node'.nuzzle.engineConnections = node.nuzzle.engineConnections ∧
      node'.updates = node.updates ∧
      ∀ topic, node'.nuzzle.subscriptions.get topic = node.nuzzle.subscriptions.get topic := by
  simp only [Steps, next, Option.some.injEq] at h
  subst h
  exact ⟨rfl, rfl, fun topic => by simp⟩

/-- An update moves the number of entries by its weight. -/
theorem live_next_update {node node' : NuzzleNode E C} {c : C}
    {memory : E → RequestUpdateSubscription} {m : RequestUpdateSubscriptionProto}
    (h : Steps next node (.update c memory m) node') (topic : UInt64) :
    (node'.live topic : Int) = node.live topic + weight topic m := by
  obtain ⟨-, -, hother, hown⟩ := updates_next_update h
  unfold live weight
  have htopic : m.get.topicId = m.topicId := rfl
  by_cases ht : m.topicId = topic
  · subst ht
    rw [htopic, if_pos rfl]
    by_cases hs : m.get.isSubscribe = true
    · simp only [hs, if_true] at hown ⊢
      simp [hown]
    · simp only [hs, Bool.false_eq_true, if_false] at hown ⊢
      have hlen := List.length_erase_of_mem hown.1
      have hpos := List.length_pos_of_mem hown.1
      rw [hown.2]
      omega
  · rw [hother topic (Ne.symm ht), htopic, if_neg ht, Int.add_zero]

theorem wired_next {node node' : NuzzleNode E C} {event : NuzzleEvent E C}
    (hinv : Wired node) (h : Steps next node event node') : Wired node' := by
  cases event with
  | connect e =>
      obtain ⟨hfresh, rfl⟩ := connect_next h
      refine ⟨?_, fun e' he' => ?_⟩
      · exact List.nodup_append.mpr ⟨hinv.nodup, List.nodup_singleton e, fun a ha b hb => by
          rintro rfl
          exact hfresh (by simpa [List.mem_singleton.mp hb] using ha)⟩
      · exact hinv.unconnected e' fun hmem => he' (List.mem_append_left _ hmem)
  | publish e m =>
      obtain ⟨hconns, hupd, -⟩ := updates_next_publish h
      refine ⟨by rw [hconns]; exact hinv.nodup, fun e' he' => ?_⟩
      rw [hupd]
      exact hinv.unconnected e' (hconns ▸ he')
  | update c memory m =>
      obtain ⟨hconns, hsent, -, -⟩ := updates_next_update h
      refine ⟨by rw [hconns]; exact hinv.nodup, fun e' he' => ?_⟩
      rw [hconns] at he'
      obtain ⟨sent, -, hupd⟩ := hsent e'
      rw [hupd, hinv.unconnected e' he', List.count_eq_zero_of_not_mem he']
      rfl

/-- The nuzzle and its engines agree on a topic: what a connected engine has been sent
balances to the number of entries the nuzzle has. -/
def AgreesOn (topic : UInt64) (node : NuzzleNode E C) : Prop :=
  ∀ e ∈ node.nuzzle.engineConnections, balance topic (node.updates e) = node.live topic

/-- The nuzzle and its engines agree on every topic. -/
def Agrees (node : NuzzleNode E C) : Prop := ∀ topic, AgreesOn topic node

/-- An update keeps an agreement on a topic, and a disagreement. -/
theorem balance_next_update {node node' : NuzzleNode E C} (hinv : Wired node) {c : C}
    {memory : E → RequestUpdateSubscription} {m : RequestUpdateSubscriptionProto}
    (h : Steps next node (.update c memory m) node') {e : E}
    (he : e ∈ node.nuzzle.engineConnections) (topic : UInt64) :
    balance topic (node'.updates e) = balance topic (node.updates e) + weight topic m := by
  obtain ⟨-, hsent, -, -⟩ := updates_next_update h
  obtain ⟨sent, hweight, hupd⟩ := hsent e
  rw [hupd, List.count_eq_one_of_mem hinv.nodup he, List.replicate_one, balance_snoc,
    hweight]

/-- The nuzzle connects to an engine only while the topic has no entry. -/
def ConnectsIdle (topic : UInt64) (node : NuzzleNode E C) (event : NuzzleEvent E C) : Prop :=
  event.connected.isSome = true → node.live topic = 0

instance (topic : UInt64) (node : NuzzleNode E C) (event : NuzzleEvent E C) :
    Decidable (ConnectsIdle topic node event) :=
  inferInstanceAs (Decidable (event.connected.isSome = true → node.live topic = 0))

/-- From an agreement a step leads to an agreement exactly when it does not connect an
engine while an entry is live. -/
theorem agreesOn_next_iff {node node' : NuzzleNode E C} {event : NuzzleEvent E C}
    (hinv : Wired node) {topic : UInt64} (hagree : AgreesOn topic node)
    (h : Steps next node event node') :
    AgreesOn topic node' ↔ ConnectsIdle topic node event := by
  cases event with
  | connect e =>
      obtain ⟨hfresh, rfl⟩ := connect_next h
      have hnil := hinv.unconnected e hfresh
      have hlive : live { node with nuzzle := node.nuzzle.connectToEngine e } topic =
          node.live topic := rfl
      constructor
      · intro hagree' _
        have hzero := hagree' e (by simp [Nuzzle.connectToEngine])
        rw [hnil, balance_nil, hlive] at hzero
        omega
      · intro hidle e' he'
        rw [hlive]
        rcases List.mem_append.mp he' with hold | hnew
        · exact hagree e' hold
        · rw [List.mem_singleton.mp hnew, hnil, hidle rfl]
          rfl
  | publish e m =>
      obtain ⟨hconns, hupd, hsubs⟩ := updates_next_publish h
      refine iff_of_true (fun e' he' => ?_) (by simp [ConnectsIdle, NuzzleEvent.connected])
      rw [hconns] at he'
      unfold live
      rw [hupd, hsubs]
      exact hagree e' he'
  | update c memory m =>
      obtain ⟨hconns, -, -, -⟩ := updates_next_update h
      refine iff_of_true (fun e' he' => ?_) (by simp [ConnectsIdle, NuzzleEvent.connected])
      rw [hconns] at he'
      rw [balance_next_update hinv h he', live_next_update h, hagree e' he']

theorem wired_run {groupSize : UInt16} {trace : List (NuzzleNode E C × NuzzleEvent E C)}
    {node : NuzzleNode E C} (h : Run (Steps next) (start groupSize) trace node) :
    Wired node :=
  h.keeps (wired_start groupSize)
    fun _ _ _ hinv hstep => wired_next hinv hstep

/-! ## One subscription each -/

/-- A consumer that subscribes to a topic is not subscribed to it. -/
def SubscribesOnce (node : NuzzleNode E C) (event : NuzzleEvent E C) : Prop :=
  ∀ r ∈ event.updated, r.2.get.isSubscribe = true →
    r.1 ∉ node.nuzzle.subscriptions.get r.2.topicId

instance (node : NuzzleNode E C) (event : NuzzleEvent E C) :
    Decidable (SubscribesOnce node event) :=
  inferInstanceAs (Decidable (∀ r ∈ event.updated, r.2.get.isSubscribe = true →
    r.1 ∉ node.nuzzle.subscriptions.get r.2.topicId))

theorem subscriptions_nodup_next {node node' : NuzzleNode E C} {event : NuzzleEvent E C}
    (hinv : ∀ topic, (node.nuzzle.subscriptions.get topic).Nodup)
    (honce : SubscribesOnce node event) (h : Steps next node event node') :
    ∀ topic, (node'.nuzzle.subscriptions.get topic).Nodup := by
  cases event with
  | connect e =>
      obtain ⟨-, rfl⟩ := connect_next h
      exact hinv
  | publish e m =>
      intro topic
      rw [(updates_next_publish h).2.2]
      exact hinv topic
  | update c memory m =>
      obtain ⟨-, -, hother, hown⟩ := updates_next_update h
      intro topic
      by_cases ht : topic = m.topicId
      · subst ht
        have hnew := honce (c, m) rfl
        by_cases hs : m.get.isSubscribe = true
        · simp only [hs, if_true] at hown
          rw [hown]
          exact List.nodup_append.mpr ⟨hinv _, List.nodup_singleton c, fun a ha b hb => by
            rintro rfl
            exact hnew hs (by simpa [List.mem_singleton.mp hb] using ha)⟩
        · simp only [hs, Bool.false_eq_true, if_false] at hown
          rw [hown.2]
          exact (hinv _).erase c
      · rw [hother topic ht]
        exact hinv topic

/-- If nobody subscribes twice nobody is subscribed twice. -/
theorem subscriptions_nodup_run {groupSize : UInt16}
    {trace : List (NuzzleNode E C × NuzzleEvent E C)} {node : NuzzleNode E C}
    (h : Run (Steps next) (start groupSize) trace node)
    (honce : ∀ x ∈ trace, SubscribesOnce x.1 x.2) (topic : UInt64) :
    (node.nuzzle.subscriptions.get topic).Nodup :=
  h.invariant (I := fun node => ∀ topic, (node.nuzzle.subscriptions.get topic).Nodup)
    honce (fun _ => List.nodup_nil)
    (fun _ _ _ hinv hone hstep => subscriptions_nodup_next hinv hone hstep) topic

/-! ## Agreement over a run -/

/-- The nuzzle and its engines agree on a topic all along a run exactly when no engine
was connected while the topic had an entry. -/
theorem agreesOn_throughout_iff {groupSize : UInt16}
    {trace : List (NuzzleNode E C × NuzzleEvent E C)} {node : NuzzleNode E C}
    (h : Run (Steps next) (start groupSize) trace node) (topic : UInt64) :
    Throughout (AgreesOn topic) trace node ↔ ∀ x ∈ trace, ConnectsIdle topic x.1 x.2 := by
  induction h with
  | refl => simp [Throughout, AgreesOn, start, Nuzzle.new]
  | @snoc trace node node' event hrun hstep ih =>
      rw [throughout_snoc, ih]
      constructor
      · rintro ⟨hidle, hagree'⟩ x hx
        have hagree : AgreesOn topic node := (ih.mpr hidle).2
        rcases List.mem_append.mp hx with hold | hnew
        · exact hidle x hold
        · rw [List.mem_singleton.mp hnew]
          exact (agreesOn_next_iff (wired_run hrun) hagree hstep).mp hagree'
      · intro hidle
        have hbefore := fun x hx => hidle x (List.mem_append_left _ hx)
        have hagree : AgreesOn topic node := (ih.mpr hbefore).2
        exact ⟨hbefore, (agreesOn_next_iff (wired_run hrun) hagree hstep).mpr
          (hidle (node, event) (by simp))⟩

/-- The nuzzle and its engines agree on every topic all along a run exactly when no
engine was connected while any topic had an entry. -/
theorem agrees_throughout_iff {groupSize : UInt16}
    {trace : List (NuzzleNode E C × NuzzleEvent E C)} {node : NuzzleNode E C}
    (h : Run (Steps next) (start groupSize) trace node) :
    Throughout Agrees trace node ↔
      ∀ x ∈ trace, ∀ topic, ConnectsIdle topic x.1 x.2 := by
  have htopics : Throughout Agrees trace node ↔
      ∀ topic, Throughout (AgreesOn topic) trace node :=
    ⟨fun hall topic => ⟨fun x hx => hall.1 x hx topic, hall.2 topic⟩,
      fun hall => ⟨fun x hx topic => (hall topic).1 x hx, fun topic => (hall topic).2⟩⟩
  rw [htopics]
  simp only [agreesOn_throughout_iff h]
  exact ⟨fun hidle x hx topic => hidle topic x hx, fun hidle topic x hx => hidle x hx topic⟩

/-- The nuzzle connects to its engine after the consumer has subscribed, as it can while
`main` is still in the loop that connects the engines. -/
def subscribeThenConnect (c : C) (e : E) : List (NuzzleEvent E C) :=
  [.update c (fun _ => default) (RequestUpdateSubscription.on 7 1).setWithTelemetry,
    .connect e]

theorem subscribeThenConnect_not_agrees :
    ¬ ∀ (trace : List (NuzzleNode (Fin 1) (Fin 1) × NuzzleEvent (Fin 1) (Fin 1)))
      (node : NuzzleNode (Fin 1) (Fin 1)),
        Run (Steps next) (start 1) trace node → Throughout Agrees trace node := by
  intro hclaim
  obtain ⟨trace, node, hrun, hconn, hne⟩ :=
    exists_run_of_execute (subscribeThenConnect 0 0) next
      (start 1 : NuzzleNode (Fin 1) (Fin 1))
      (fun _ node => 0 ∈ node.nuzzle.engineConnections ∧
        balance 7 (node.updates 0) ≠ node.live 7) (by decide +kernel)
  exact hne ((hclaim trace node hrun).2 7 0 hconn)

/-- There the two sides of the equivalence fail together. -/
theorem agrees_throughout_iff_subscribeThenConnect :
    ∃ (trace : List (NuzzleNode (Fin 1) (Fin 1) × NuzzleEvent (Fin 1) (Fin 1)))
      (node : NuzzleNode (Fin 1) (Fin 1)), Run (Steps next) (start 1) trace node ∧
        node.live 7 = 1 ∧
        (Throughout Agrees trace node ↔
          ∀ x ∈ trace, ∀ topic, ConnectsIdle topic x.1 x.2) := by
  obtain ⟨trace, node, hrun, hlive⟩ :=
    exists_run_of_execute (subscribeThenConnect 0 0) next
      (start 1 : NuzzleNode (Fin 1) (Fin 1))
      (fun _ node => node.live 7 = 1) (by decide +kernel)
  exact ⟨trace, node, hrun, hlive, agrees_throughout_iff hrun⟩

end NuzzleNode

end Firehose.Cluster
