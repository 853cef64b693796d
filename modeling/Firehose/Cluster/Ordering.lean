import Firehose.Cluster.Integrity
import Firehose.Foundation.Merging

set_option autoImplicit false

/-!
# The order of first deliveries

A nuzzle has no ordering code.  But every engine relays the messages of a topic in the
order in which the pump handled them, each as often as it lists the nuzzle, so at every
moment an earlier message has reached the nuzzle at least as often as a later one, and
the count of the earlier one reaches the quorum first.
-/

namespace Firehose.Cluster

open Firehose.Api Firehose.Foundation Firehose.Node
open Function (update)

/-- The identifiers of the messages on a topic, from their keys. -/
def idsOn (topic : UInt64) (keys : List Key) : List UInt64 :=
  (keys.filter fun key => decide (key.1 = topic)).map (·.2)

@[simp] theorem idsOn_nil (topic : UInt64) : idsOn topic [] = [] := rfl

theorem idsOn_append (topic : UInt64) (l₁ l₂ : List Key) :
    idsOn topic (l₁ ++ l₂) = idsOn topic l₁ ++ idsOn topic l₂ := by
  simp [idsOn]

theorem idsOn_singleton (topic : UInt64) (key : Key) :
    idsOn topic [key] = if key.1 = topic then [key.2] else [] := by
  by_cases hk : key.1 = topic <;> simp [idsOn, hk]

theorem idsOn_replicate (topic : UInt64) (k : Nat) (key : Key) :
    idsOn topic (List.replicate k key) =
      if key.1 = topic then List.replicate k key.2 else [] := by
  by_cases hk : key.1 = topic <;> simp [idsOn, hk]

theorem mem_idsOn {topic id : UInt64} {keys : List Key} :
    id ∈ idsOn topic keys ↔ (topic, id) ∈ keys := by
  simp [idsOn]

theorem idsOn_isPrefix (topic : UInt64) {l₁ l₂ : List Key} (h : l₁ <+: l₂) :
    idsOn topic l₁ <+: idsOn topic l₂ := (h.filter _).map _

theorem copies_eq_count (topic id : UInt64) (ms : List RequestPublishProto) :
    copies (topic, id) ms = (idsOn topic (ms.map (·.key))).count id := by
  simp only [copies, idsOn, List.count, List.countP_map, List.countP_filter, Function.comp_def]
  refine List.countP_congr fun m _ => ?_
  simp [Prod.ext_iff, and_comm]

/-! ## What an engine relays -/

namespace EngineNode

variable {N : Type} [DecidableEq N]

/-- The engine has relayed the messages of the topic to the nuzzle in the order of their
prepares, each as often as it lists the nuzzle. -/
def RelaysInOrder (topic : UInt64) (n : N) (node : EngineNode Unit N) : Prop :=
  idsOn topic ((node.fanouts n).map (·.key)) =
    (idsOn topic ((node.prepares ()).map (·.key))).flatMap fun id =>
      List.replicate ((node.engine.subscriptions.get topic).count n) id

/-- Subscriptions to the topic change only before its first prepare. -/
def UpdatesBeforePrepares (topic : UInt64) (node : EngineNode Unit N)
    (event : EngineEvent Unit N) : Prop :=
  ∀ m ∈ event.updated, m.topicId = topic → idsOn topic ((node.prepares ()).map (·.key)) = []

theorem relaysInOrder_next {topic : UInt64} {n : N} {node node' : EngineNode Unit N}
    {event : EngineEvent Unit N} (hinv : RelaysInOrder topic n node)
    (hbefore : UpdatesBeforePrepares topic node event) (h : Steps next node event node') :
    RelaysInOrder topic n node' := by
  unfold RelaysInOrder at hinv ⊢
  cases event with
  | prepare p ackMemory publishMemory m =>
      have hsubs : node'.engine.subscriptions.get topic =
          node.engine.subscriptions.get topic := by
        simp only [Steps, next, Option.some.injEq] at h
        subst h
        simp
      rw [fanouts_next_prepare h, prepares_next_prepare h, Function.update_self, hsubs]
      simp only [List.map_append, List.map_replicate, List.map_cons, List.map_nil,
        idsOn_append, idsOn_replicate, idsOn_singleton, hinv, List.flatMap_append]
      congr 1
      have hkey : (Engine.MsgPublishReqTx.set (Engine.publishOf publishMemory m.get)).key =
          m.key := by
        rw [RequestPublish.key_set, Engine.publishOf_key]
        rfl
      rw [hkey]
      by_cases ht : m.key.1 = topic
      · subst ht
        have htopic : m.topicId = m.key.1 := rfl
        simp [htopic]
      · simp [ht]
  | accept p request =>
      simp only [Steps, next, Option.some.injEq] at h
      subst h
      exact hinv
  | update n' m =>
      obtain ⟨-, hprep, hfan, -⟩ := messages_next h (by simp)
      rw [hprep, hfan, hinv]
      by_cases ht : m.topicId = topic
      · rw [hbefore m rfl ht]
        rfl
      · obtain ⟨engine, hup, rfl⟩ := update_next h
        rw [Engine.onUpdateSubscriptionReceive_subscriptions_of_ne hup (Ne.symm ht)]

theorem relaysInOrder_run {topic : UInt64} {n : N}
    {trace : List (EngineNode Unit N × EngineEvent Unit N)} {node : EngineNode Unit N}
    (h : Run (Steps next) start trace node)
    (hbefore : ∀ x ∈ trace, UpdatesBeforePrepares topic x.1 x.2) :
    RelaysInOrder topic n node :=
  h.invariant (I := RelaysInOrder topic n) hbefore rfl
    fun _ _ _ hinv hone hstep => relaysInOrder_next hinv hone hstep

end EngineNode

/-! ## What a nuzzle delivers first -/

namespace NuzzleNode

variable {E C : Type} [Fintype E]

/-- No message of the list has come more often than an earlier one. -/
def InOrder (topic : UInt64) (order : List UInt64) (node : NuzzleNode E C) : Prop :=
  order.Pairwise fun a b => node.received (topic, b) ≤ node.received (topic, a)

/-- A copy that is handled is of a message of the list, and subscriptions to the topic
change only before its first copy. -/
structure Follows (topic : UInt64) (order : List UInt64) (node : NuzzleNode E C)
    (event : NuzzleEvent E C) : Prop where
  inOrder : InOrder topic order node
  listed : ∀ m ∈ event.published, m.key.1 = topic → m.key.2 ∈ order
  untouched : ∀ r ∈ event.updated, r.2.topicId = topic → ∀ id, node.received (topic, id) = 0

/-- Whether a message has come often enough. -/
def reached (groupSize : UInt16) (topic : UInt64) (node : NuzzleNode E C) (id : UInt64) :
    Bool :=
  decide (quorum groupSize ≤ node.received (topic, id))

/-- While no copy on the topic has come, no message on it has reached the quorum. -/
theorem filter_reached_eq_nil (groupSize : UInt16) {topic : UInt64} {node : NuzzleNode E C}
    (hnone : ∀ id, node.received (topic, id) = 0) (order : List UInt64) :
    order.filter (reached groupSize topic node) = [] := by
  refine List.filter_eq_nil_iff.mpr fun id _ => ?_
  have hpos := quorum_pos groupSize
  simp only [reached, hnone, decide_eq_true_eq]
  omega

/-- The messages that have reached the quorum come before those that have not. -/
theorem InOrder.reached_downward {topic : UInt64} {order : List UInt64}
    {node : NuzzleNode E C} (h : InOrder topic order node) (groupSize : UInt16) :
    order.Pairwise fun a b =>
      reached groupSize topic node b = true → reached groupSize topic node a = true := by
  refine h.imp fun {a b} hle hb => ?_
  simp only [reached, decide_eq_true_eq] at hb ⊢
  exact hb.trans hle

variable [DecidableEq C]

/-- The messages of the topic handed to the consumer are first those of the list that have
reached the quorum. -/
def DeliversInOrder (groupSize : UInt16) (topic : UInt64) (order : List UInt64) (c : C)
    (node : NuzzleNode E C) : Prop :=
  firsts (idsOn topic ((node.deliveries c).map (·.key))) =
    if c ∈ node.nuzzle.subscriptions.get topic then
      order.filter (reached groupSize topic node)
    else []

theorem deliversInOrder_start (groupSize : UInt16) (topic : UInt64) (order : List UInt64)
    (c : C) : DeliversInOrder groupSize topic order c (start groupSize : NuzzleNode E C) := by
  simp [DeliversInOrder, start, Nuzzle.new]

/-- What the consumer is handed first is a prefix of the list. -/
theorem DeliversInOrder.firsts_isPrefix {groupSize : UInt16} {topic : UInt64}
    {order : List UInt64} {c : C} {node : NuzzleNode E C}
    (h : DeliversInOrder groupSize topic order c node) (horder : InOrder topic order node) :
    firsts (idsOn topic ((node.deliveries c).map (·.key))) <+: order := by
  rw [h]
  split
  · exact filter_prefix_of_downward (horder.reached_downward groupSize)
  · exact List.nil_prefix

variable [DecidableEq E]

/-- A copy makes its message reach the quorum, or changes nothing. -/
theorem reached_next_publish (groupSize : UInt16) (topic : UInt64)
    {node node' : NuzzleNode E C} {e : E} {m : RequestPublishProto}
    (h : Steps next node (.publish e m) node') (id : UInt64) :
    reached groupSize topic node' id = (reached groupSize topic node id ||
      decide (m.key = (topic, id) ∧ node.received m.key + 1 = quorum groupSize)) := by
  unfold reached
  rw [received_next_publish h, ← Bool.decide_or, decide_eq_decide]
  by_cases hk : m.key = (topic, id)
  · rw [if_pos hk, ← hk]
    simp only [true_and]
    omega
  · simp [hk]

/-- The copy that completes a quorum for the first time is of the message that comes next
in the list, and any other copy delivers nothing new. -/
theorem deliversInOrder_publish {groupSize : UInt16} (hpos : 0 < groupSize.toNat)
    {topic : UInt64} {order : List UInt64} (hnodup : order.Nodup) {c : C}
    {node node' : NuzzleNode E C} {e : E} {m : RequestPublishProto}
    (hcounted : Counted groupSize node)
    (hinv : DeliversInOrder groupSize topic order c node)
    (hfollows : Follows topic order node (.publish e m))
    (h : Steps next node (.publish e m) node') :
    DeliversInOrder groupSize topic order c node' := by
  obtain ⟨-, -, hsubs⟩ := updates_next_publish h
  have hreached := reached_next_publish groupSize topic h
  have hkey : (Nuzzle.MsgPublishReqTx.set (Nuzzle.MsgPublishReqRx.get m)).key = m.key :=
    RequestPublish.key_set m.get
  unfold DeliversInOrder at hinv ⊢
  rw [hsubs, deliveries_next_publish hpos hcounted h]
  simp only [List.map_append, List.map_replicate, idsOn_append, idsOn_replicate, hkey]
  by_cases ht : m.key.1 = topic
  · have hid : ∀ id, m.key = (topic, id) ↔ id = m.key.2 := fun id => by
      simp [Prod.ext_iff, ht, eq_comm]
    have hm : m.key = (topic, m.key.2) := (hid _).mpr rfl
    have hlisted := hfollows.listed m rfl ht
    rw [if_pos ht, show m.topicId = topic from ht]
    by_cases hc : c ∈ node.nuzzle.subscriptions.get topic
    · rw [if_pos hc] at hinv ⊢
      by_cases hquorum : node.received m.key + 1 = quorum groupSize
      · -- the quorum is complete for the first time
        have hmod : node.received m.key % groupSize.toNat = node.received m.key :=
          Nat.mod_eq_of_lt (by have hle := quorum_le hpos; omega)
        have hnot : reached groupSize topic node m.key.2 = false := by
          simp only [reached, ← hm, decide_eq_false_iff_not]
          omega
        rw [hmod, if_pos hquorum]
        exact firsts_of_reached_now hinv hnodup hlisted (List.count_pos_iff.mpr hc) hnot
          (fun id => by simp [hreached, hquorum, hid])
          (hfollows.inOrder.reached_downward groupSize)
      · -- a copy too few, or one of a message that has been delivered before
        have hsame : reached groupSize topic node' = reached groupSize topic node := by
          funext id
          simp [hreached, hquorum]
        rw [hsame]
        refine firsts_of_reached_before hinv hlisted fun hcopy => ?_
        have hmod := Nat.mod_le (node.received m.key) groupSize.toNat
        simp only [reached, ← hm, decide_eq_true_eq]
        split at hcopy <;> omega
    · rw [if_neg hc] at hinv ⊢
      simp [List.count_eq_zero_of_not_mem hc, hinv]
  · have hsame : reached groupSize topic node' = reached groupSize topic node := by
      funext id
      have hne : m.key ≠ (topic, id) := fun heq => ht (by rw [heq])
      simp [hreached, hne]
    rw [if_neg ht, List.append_nil, hsame, hinv]

theorem deliversInOrder_next {groupSize : UInt16} (hpos : 0 < groupSize.toNat)
    {topic : UInt64} {order : List UInt64} (hnodup : order.Nodup) {c : C}
    {node node' : NuzzleNode E C} {event : NuzzleEvent E C} (hcounted : Counted groupSize node)
    (hinv : DeliversInOrder groupSize topic order c node)
    (hfollows : Follows topic order node event) (h : Steps next node event node') :
    DeliversInOrder groupSize topic order c node' := by
  cases event with
  | publish e m => exact deliversInOrder_publish hpos hnodup hcounted hinv hfollows h
  | connect e =>
      obtain ⟨-, rfl⟩ := connect_next h
      exact hinv
  | update c' memory m =>
      obtain ⟨hfan, hdel, -, -⟩ := fanouts_deliveries_next h (by simp)
      obtain ⟨-, -, hother, -⟩ := updates_next_update h
      have hreached : reached groupSize topic node' = reached groupSize topic node := by
        funext id
        unfold reached received
        rw [hfan]
      unfold DeliversInOrder
      rw [hdel, hreached]
      by_cases ht : m.topicId = topic
      · -- nothing has come yet, so the new list of subscribers makes no difference
        have hnone := filter_reached_eq_nil groupSize
          (hfollows.untouched (c', m) rfl ht) order
        rw [hinv, hnone, ite_self, ite_self]
      · rw [hother topic (Ne.symm ht)]
        exact hinv

theorem deliversInOrder_run {groupSize : UInt16} (hpos : 0 < groupSize.toNat)
    {topic : UInt64} {order : List UInt64} (hnodup : order.Nodup) {c : C}
    {trace : List (NuzzleNode E C × NuzzleEvent E C)} {node : NuzzleNode E C}
    (h : Run (Steps next) (start groupSize) trace node)
    (hfollows : ∀ x ∈ trace, Follows topic order x.1 x.2) :
    DeliversInOrder groupSize topic order c node := by
  refine (counted_start groupSize).invariant hpos h (D := Follows topic order)
    (I := DeliversInOrder groupSize topic order c) hfollows
    (deliversInOrder_start groupSize topic order c) ?_
  intro node event node' hcounted hinv hone hstep
  exact deliversInOrder_next hpos hnodup hcounted hinv hone hstep

end NuzzleNode

/-! ## The system -/

namespace State

variable {B E N C : Type}
variable [DecidableEq B] [DecidableEq E] [DecidableEq N] [DecidableEq C]
variable {groupSize : UInt16} {steps : Trace B Unit E N C} {s : State B Unit E N C}
  {topic : UInt64}

/-- The identifiers of the messages on a topic, in the order in which the pump has handled
them. -/
def order (topic : UInt64) (steps : Trace B Unit E N C) : List UInt64 :=
  idsOn topic ((handledBy () steps).map Handled.key)

/-- The pump handles a publish on the topic in a step. -/
def PublishesOn (topic : UInt64) (x : State B Unit E N C × Action B Unit E N C) : Prop :=
  ∃ k ∈ handledAt () x.1 x.2, k.publish.topicId = topic

/-- A nuzzle or an engine handles an update of the subscriptions to the topic in a step. -/
def UpdatesOn (topic : UInt64) (x : State B Unit E N C × Action B Unit E N C) : Prop :=
  (∃ n, ∃ event ∈ nuzzleEvent n x.1 x.2, ∃ r ∈ event.updated, r.2.topicId = topic) ∨
    ∃ e, ∃ event ∈ engineEvent e x.1 x.2, ∃ m ∈ event.updated, m.topicId = topic

/-- No subscription to the topic changes once a publish on it has been handled. -/
def Settled (topic : UInt64) (steps : Trace B Unit E N C) : Prop :=
  steps.Pairwise fun x y => PublishesOn topic x → ¬ UpdatesOn topic y

instance (topic : UInt64) (x : State B Unit E N C × Action B Unit E N C) :
    Decidable (PublishesOn topic x) :=
  inferInstanceAs (Decidable (∃ k ∈ handledAt () x.1 x.2, k.publish.topicId = topic))

instance [Fintype E] [Fintype N] (topic : UInt64)
    (x : State B Unit E N C × Action B Unit E N C) : Decidable (UpdatesOn topic x) :=
  inferInstanceAs (Decidable
    ((∃ n, ∃ event ∈ nuzzleEvent n x.1 x.2, ∃ r ∈ event.updated, r.2.topicId = topic) ∨
      ∃ e, ∃ event ∈ engineEvent e x.1 x.2, ∃ m ∈ event.updated, m.topicId = topic))

instance [Fintype E] [Fintype N] (topic : UInt64) (steps : Trace B Unit E N C) :
    Decidable (Settled topic steps) :=
  inferInstanceAs (Decidable
    (steps.Pairwise fun x y => PublishesOn topic x → ¬ UpdatesOn topic y))

omit [DecidableEq B] [DecidableEq E] [DecidableEq N] [DecidableEq C] in
theorem mem_order {id : UInt64} :
    id ∈ order topic steps ↔ ∃ k ∈ handledBy () steps, k.key = (topic, id) := by
  simp [order, mem_idsOn]

omit [DecidableEq B] [DecidableEq E] [DecidableEq N] [DecidableEq C] in
theorem order_isPrefix {t₁ t₂ : Trace B Unit E N C} (h : t₁ <+: t₂) :
    order topic t₁ <+: order topic t₂ := idsOn_isPrefix topic ((h.filterMap _).map _)

omit [DecidableEq B] [DecidableEq C] in
/-- Before a change of the subscriptions nothing has been published on the topic. -/
theorem Settled.order_eq_nil {t₁ t₂ : Trace B Unit E N C}
    {x : State B Unit E N C × Action B Unit E N C} (h : Settled topic (t₁ ++ x :: t₂))
    (hx : UpdatesOn topic x) : order topic t₁ = [] := by
  refine List.eq_nil_iff_forall_not_mem.mpr fun id hid => ?_
  obtain ⟨k, hk, hkey⟩ := mem_order.mp hid
  obtain ⟨y, hy, hhandled⟩ := List.mem_filterMap.mp hk
  exact (List.pairwise_append.mp h).2.2 y hy x (List.mem_cons_self ..)
    ⟨k, hhandled, congrArg Prod.fst hkey⟩ hx

/-- The order is by rising identifiers. -/
theorem order_increasing (h : Runs groupSize steps s)
    (hfew : (handledBy () steps).length ≤ 2 ^ 64) : (order topic steps).Pairwise (· < ·) := by
  have hids := (h.numbered ()).ids_increasing hfew
  refine hids.sublist ?_
  have hsub := (List.filter_sublist (p := fun key : Key => decide (key.1 = topic))
    (l := (handledBy () steps).map Handled.key)).map Prod.snd
  rw [List.map_map] at hsub
  exact hsub

theorem order_nodup (h : Runs groupSize steps s)
    (hfew : (handledBy () steps).length ≤ 2 ^ 64) : (order topic steps).Nodup :=
  (order_increasing h hfew).imp UInt64.ne_of_lt

omit [DecidableEq B] [DecidableEq E] [DecidableEq N] [DecidableEq C] in
theorem AllConnected.of_isPrefix {t₁ t₂ : Trace B Unit E N C} (h : AllConnected () t₂)
    (hpre : t₁ <+: t₂) : AllConnected () t₁ :=
  fun k hk => h k ((hpre.filterMap _).subset hk)

/-- What an engine has handled of a topic is a prefix of the order. -/
theorem prepares_prefix_order (h : Runs groupSize steps s) (hconn : AllConnected () steps)
    (e : E) :
    idsOn topic ((s.prepares ((), e)).received.map (·.key)) <+: order topic steps := by
  have hsent : (s.prepares ((), e)).sent = (handledBy () steps).map Handled.prepare :=
    (h.numbered ()).prepares_eq_of_connected fun x hx => hconn x hx e
  have hpre := (s.prepares ((), e)).received_prefix_sent
  rw [hsent] at hpre
  have hmap := hpre.map RequestPrepareProto.key
  rw [List.map_map] at hmap
  exact idsOn_isPrefix topic hmap

/-- Every engine relays the topic to a nuzzle in the order. -/
theorem relaysInOrder (h : Runs groupSize steps s) (hconn : AllConnected () steps)
    (hsettled : Settled topic steps) (e : E) (n : N) :
    EngineNode.RelaysInOrder topic n (s.engineNode e) := by
  refine EngineNode.relaysInOrder_run (h.engineNode e) (forall_mem_projectTrace.mpr ?_)
  intro x hx event hevent m hm ht
  obtain ⟨t₁, t₂, s', rfl, hbefore, -, -⟩ := h.around hx
  have hnone := hsettled.order_eq_nil (Or.inr ⟨e, event, hevent, m, hm, ht⟩)
  have hpre : idsOn topic ((x.1.prepares ((), e)).received.map (·.key)) <+: order topic t₁ :=
    prepares_prefix_order hbefore (hconn.of_isPrefix (List.prefix_append ..)) e
  rw [hnone] at hpre
  exact List.prefix_nil.mp hpre

/-- At every moment no message of the topic has reached a nuzzle more often than an earlier
one. -/
theorem inOrder [Fintype E] (h : Runs groupSize steps s) (hconn : AllConnected () steps)
    (hsettled : Settled topic steps) {ids : List UInt64} (hnodup : ids.Nodup)
    (hpre : order topic steps <+: ids) (n : N) :
    NuzzleNode.InOrder topic ids (s.nuzzleNode n) := by
  refine List.pairwise_iff_forall_sublist.mpr fun {a b} hab => Finset.sum_le_sum fun e _ => ?_
  have hrelays := relaysInOrder h hconn hsettled e n
  have hreceived := idsOn_isPrefix topic
    ((s.fanouts (e, n)).received_prefix_sent.map (·.key))
  have hids : idsOn topic ((s.fanouts (e, n)).received.map (·.key)) <+: ids.flatMap fun id =>
      List.replicate (((s.engine e).subscriptions.get topic).count n) id := by
    refine hreceived.trans ?_
    change idsOn topic ((s.fanouts (e, n)).sent.map _) = _ at hrelays
    rw [hrelays]
    exact ((prepares_prefix_order h hconn e).trans hpre).flatMap _
  have hcount := List.pairwise_iff_forall_sublist.mp (count_antitone hnodup hids) hab
  simpa [nuzzleNode, copies_eq_count] using hcount

/-- A copy that has reached a nuzzle is of a message that the pump has handled. -/
theorem mem_order_of_fanouts (h : Runs groupSize steps s) {e : E} {n : N}
    {m : RequestPublishProto} (hm : m ∈ (s.fanouts (e, n)).sent) (ht : m.key.1 = topic) :
    m.key.2 ∈ order topic steps := by
  obtain ⟨⟨⟩, k, hk, hkey, -⟩ := h.genuine.fanouts e n m hm
  exact mem_order.mpr ⟨k, hk, by rw [← hkey, ← ht]⟩

/-- Each step of a nuzzle follows the order. -/
theorem follows [Fintype E] (h : Runs groupSize steps s)
    (hfew : (handledBy () steps).length ≤ 2 ^ 64) (hconn : AllConnected () steps)
    (hsettled : Settled topic steps) (n : N) :
    ∀ x ∈ steps, ∀ event ∈ nuzzleEvent n x.1 x.2,
      NuzzleNode.Follows topic (order topic steps) (x.1.nuzzleNode n) event := by
  intro x hx event hevent
  have hnodup : (order topic steps).Nodup := order_nodup h hfew
  obtain ⟨t₁, t₂, s', rfl, hbefore, -, -⟩ := h.around hx
  have hpre : t₁ <+: t₁ ++ x :: t₂ := List.prefix_append ..
  refine ⟨?_, fun m hm ht => ?_, fun r hr ht id => ?_⟩
  · exact inOrder hbefore (hconn.of_isPrefix hpre) (hsettled.sublist hpre.sublist) hnodup
      (order_isPrefix hpre) n
  · cases event with
    | publish e m' =>
        obtain rfl : m' = m := Option.some.inj hm
        exact (order_isPrefix hpre).subset
          (mem_order_of_fanouts hbefore (mem_sent_of_nuzzleEvent hevent) ht)
    | connect | update => simp [NuzzleEvent.published] at hm
  · have hnone := hsettled.order_eq_nil (Or.inl ⟨n, event, hevent, r, hr, ht⟩)
    refine Finset.sum_eq_zero fun e _ => Nat.eq_zero_of_not_pos fun hcopy => ?_
    obtain ⟨m, hm, hkey⟩ := copies_pos.mp hcopy
    have hmem := mem_order_of_fanouts hbefore (Channel.mem_sent_of_received hm)
      (congrArg Prod.fst hkey)
    rw [hnone] at hmem
    cases hmem

/-- What a nuzzle first hands to a consumer of the topic is a prefix of the order. -/
theorem deliveries_follow [Fintype E] (h : Runs groupSize steps s) (hpos : 0 < groupSize.toNat)
    (hfew : (handledBy () steps).length ≤ 2 ^ 64) (hconn : AllConnected () steps)
    (hsettled : Settled topic steps) (n : N) (c : C) :
    firsts (idsOn topic ((s.deliveries (n, c)).sent.map (·.key))) <+: order topic steps := by
  have hnodup : (order topic steps).Nodup := order_nodup h hfew
  have hdeliver := NuzzleNode.deliversInOrder_run (c := c) hpos hnodup (h.nuzzleNode n)
    (forall_mem_projectTrace.mpr (follows h hfew hconn hsettled n))
  exact hdeliver.firsts_isPrefix (inOrder h hconn hsettled hnodup List.prefix_rfl n)

/-- The messages that have reached a consumer, in order, from whichever nuzzle. -/
def consumedBy (c : C) (steps : Trace B Unit E N C) : List RequestPublish :=
  steps.filterMap fun x => consumedAt c x.1 x.2

/-- What a consumer takes from a connection reaches it. -/
theorem received_deliveries_next {s s' : State B Unit E N C} {a : Action B Unit E N C}
    (h : next s a = some s') {n : N} {c : C} {m : RequestPublishProto}
    (hm : m ∈ (s'.deliveries (n, c)).received) :
    m ∈ (s.deliveries (n, c)).received ∨ consumedAt c s a = some m.get := by
  rcases (clientChannels_next h).2 with hsame | ⟨e, n', rfl⟩ | ⟨n', c', now, now', rfl⟩
  · rw [hsame] at hm
    exact Or.inl hm
  · obtain ⟨m', ch, r, -, -, rfl⟩ := nuzzleOnPublish_next h
    exact Or.inl (by simpa only [Channel.received_post] using hm)
  · obtain ⟨m', ch, hpop, rfl⟩ := consumerOnPublish_next h
    by_cases hl : (n, c) = (n', c')
    · cases hl
      simp only [Channel.received_update_self hpop, List.mem_append, List.mem_singleton] at hm
      refine hm.imp_right fun heq => ?_
      simp [consumedAt, Channel.head?_of_pop? hpop, heq]
    · exact Or.inl (by simpa only [Channel.received_update_ne _ _ hl] using hm)

theorem received_deliveries_run (h : Runs groupSize steps s) (c : C) :
    ∀ n, ∀ m ∈ (s.deliveries (n, c)).received, m.get ∈ consumedBy c steps := by
  refine h.history_keeps
    (I := fun steps s => ∀ n, ∀ m ∈ (s.deliveries (n, c)).received, m.get ∈ consumedBy c steps)
    (fun n m hm => by simp [start] at hm) ?_
  intro t s a s' hinv hstep n m hm
  rw [consumedBy, List.filterMap_append, List.mem_append]
  rcases received_deliveries_next hstep hm with hold | hnow
  · exact Or.inl (hinv n m hold)
  · exact Or.inr (by simp [hnow])

/-- With the message that a consumer is about to take, its connection still follows the
order. -/
theorem head_follows [Fintype E] (h : Runs groupSize steps s) (hpos : 0 < groupSize.toNat)
    (hfew : (handledBy () steps).length ≤ 2 ^ 64) (hconn : AllConnected () steps)
    (hsettled : Settled topic steps) {n : N} {c : C} {m : RequestPublishProto}
    (hm : (s.deliveries (n, c)).queue.head? = some m) (ht : m.key.1 = topic) :
    firsts (idsOn topic ((s.deliveries (n, c)).received.map (·.key)) ++ [m.key.2]) <+:
      order topic steps := by
  refine (firsts_isPrefix ?_).trans (deliveries_follow h hpos hfew hconn hsettled n c)
  obtain ⟨rest, hqueue⟩ := List.head?_eq_some_iff.mp hm
  have hsent : (s.deliveries (n, c)).received ++ [m] <+: (s.deliveries (n, c)).sent := by
    rw [Channel.sent, hqueue]
    simp
  have hids := idsOn_isPrefix topic (hsent.map (·.key))
  rwa [List.map_append, List.map_singleton, idsOn_append, idsOn_singleton, if_pos ht] at hids

/-- What first reaches a consumer of the topic, over all its nuzzles, is a prefix of the
order. -/
theorem consumed_follow [Fintype E] (h : Runs groupSize steps s) (hpos : 0 < groupSize.toNat)
    (hfew : (handledBy () steps).length ≤ 2 ^ 64) (hconn : AllConnected () steps)
    (hsettled : Settled topic steps) (c : C) :
    firsts (idsOn topic ((consumedBy c steps).map (·.key))) <+: order topic steps := by
  refine h.history_invariant (C := fun t _ _ => t <+: steps)
    (I := fun t _ => firsts (idsOn topic ((consumedBy c t).map (·.key))) <+: order topic steps)
    (fun t x rest ht => ⟨x :: rest, ht.symm⟩) List.nil_prefix ?_
  intro t s₁ a s₂ hrun hinv hpre hstep
  rw [consumedBy, List.filterMap_append, List.map_append, idsOn_append]
  cases hconsumed : consumedAt c s₁ a with
  | none => simpa [hconsumed, consumedBy] using hinv
  | some request =>
      obtain ⟨n, m, hm, rfl⟩ := consumedAt_eq_some hconsumed
      have hlast : ([(s₁, a)].filterMap fun x => consumedAt c x.1 x.2).map (·.key) =
          [m.key] := by
        simp [hconsumed, RequestPublishProto.key]
      rw [hlast, idsOn_singleton]
      by_cases ht : m.key.1 = topic
      · have hstream := (head_follows hrun hpos ((hpre.filterMap _).length_le.trans hfew)
          (hconn.of_isPrefix hpre) (hsettled.sublist hpre.sublist) hm ht).trans
          (order_isPrefix hpre)
        rw [if_pos ht]
        refine firsts_merge hinv hstream fun id hid => ?_
        obtain ⟨m', hm', hkey⟩ := List.mem_map.mp (mem_idsOn.mp hid)
        exact mem_idsOn.mpr
          (List.mem_map.mpr ⟨m'.get, received_deliveries_run hrun c n m' hm', hkey⟩)
      · rw [if_neg ht, List.append_nil]
        exact hinv

/-- The keys of a topic first come in the order in which the pump handled the publishes,
with none left out in between, and so by rising identifiers. -/
structure FollowsPump (topic : UInt64) (steps : Trace B Unit E N C) (keys : List Key) :
    Prop where
  follows : firsts (idsOn topic keys) <+: order topic steps
  increasing : (firsts (idsOn topic keys)).Pairwise (· < ·)

/-- If the subscriptions to a topic have settled when the pump handles the first publish on
it, every consumer first gets its messages in the order in which the pump handled them, on
each of its connections and over all of them. -/
theorem ordered_delivery [Fintype E] (h : Runs groupSize steps s)
    (hpos : 0 < groupSize.toNat) (hfew : (handledBy () steps).length ≤ 2 ^ 64)
    (hconn : AllConnected () steps) (hsettled : Settled topic steps) (c : C) :
    (∀ n, FollowsPump topic steps ((s.deliveries (n, c)).sent.map (·.key))) ∧
      FollowsPump topic steps ((consumedBy c steps).map (·.key)) := by
  have hincreasing : (order topic steps).Pairwise (· < ·) := order_increasing h hfew
  have hall : ∀ keys, firsts (idsOn topic keys) <+: order topic steps →
      FollowsPump topic steps keys :=
    fun keys hkeys => ⟨hkeys, hincreasing.sublist hkeys.sublist⟩
  exact ⟨fun n => hall _ (deliveries_follow h hpos hfew hconn hsettled n c),
    hall _ (consumed_follow h hpos hfew hconn hsettled c)⟩

/-- One engine is ahead of the other by two messages, and the nuzzle takes its copies
first. -/
def oneAhead (b : B) (e e' : E) (n : N) (c : C) : List (Action B Unit E N C) :=
  [.pumpConnectToEngine () e, .pumpConnectToEngine () e', .nuzzleConnectToEngine n e,
    .nuzzleConnectToEngine n e', .connectToPump b (), .connectToNuzzle c n,
    .updateSubscribtion c (.on 7 1), .nuzzleOnUpdate c n (fun _ => default),
    .engineOnUpdate n e, .engineOnUpdate n e', .publish b 5 (.on 7 [1]),
    .publish b 6 (.on 7 [2]), .pumpOnPublish b () default, .pumpOnPublish b () default,
    .engineOnPrepare () e default default, .engineOnPrepare () e default default,
    .nuzzleOnPublish e n, .nuzzleOnPublish e n, .engineOnPrepare () e' default default,
    .engineOnPrepare () e' default default, .nuzzleOnPublish e' n, .nuzzleOnPublish e' n,
    .consumerOnPublish n c 7 7, .consumerOnPublish n c 8 8]

theorem ordered_delivery_oneAhead :
    ∃ (steps : Trace (Fin 1) Unit (Fin 2) (Fin 1) (Fin 1))
      (s : State (Fin 1) Unit (Fin 2) (Fin 1) (Fin 1)), Runs 2 steps s ∧
        (consumedBy 0 steps).map (·.key) = [(7, 0), (7, 1)] ∧
        FollowsPump 7 steps ((consumedBy 0 steps).map (·.key)) := by
  obtain ⟨steps, s, hrun, htwo, hfew, hconn, hsettled⟩ :=
    exists_run_of_execute (oneAhead 0 0 1 0 0) next
      (start 2 : State (Fin 1) Unit (Fin 2) (Fin 1) (Fin 1))
      (fun steps _ => (consumedBy 0 steps).map (·.key) = [(7, 0), (7, 1)] ∧
        (handledBy () steps).length ≤ 2 ^ 64 ∧ ConnectedFirst steps ∧ Settled 7 steps)
      (by decide +kernel)
  exact ⟨steps, s, hrun, htwo,
    (ordered_delivery hrun (by decide) hfew (hconn.allConnected hrun ()) hsettled 0).2⟩

end State

end Firehose.Cluster
