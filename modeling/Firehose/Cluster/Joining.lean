import Firehose.Cluster.Delivery

set_option autoImplicit false

/-!
# No loss after joining

A consumer that has subscribed keeps its nuzzle's balance on the topic positive, whatever
other consumers of the nuzzle do, so an engine that has handled the subscribe goes on
listing the nuzzle.  Every engine then sends a copy of every message, and the copies reach
the quorum.
-/

namespace Firehose.Cluster

open Firehose.Api Firehose.Foundation Firehose.Node
open Function (update)
open Channel (addressedTo)

/-! ## The nuzzle -/

namespace NuzzleNode

variable {E C : Type} [DecidableEq E] [DecidableEq C]
variable {node node' : NuzzleNode E C} {event : NuzzleEvent E C} {topic : UInt64} {c : C}
  {since : E → Nat}

/-- The consumer subscribes to the topic. -/
def SubscribesTo (topic : UInt64) (c : C) (event : NuzzleEvent E C) : Prop :=
  ∃ r ∈ event.updated, r.1 = c ∧ r.2.topicId = topic ∧ r.2.get.isSubscribe = true

/-- The consumer unsubscribes from the topic. -/
def UnsubscribesFrom (topic : UInt64) (c : C) (event : NuzzleEvent E C) : Prop :=
  ∃ r ∈ event.updated, r.1 = c ∧ r.2.topicId = topic ∧ r.2.get.isSubscribe = false

instance (topic : UInt64) (c : C) (event : NuzzleEvent E C) :
    Decidable (SubscribesTo topic c event) :=
  inferInstanceAs (Decidable (∃ r ∈ event.updated,
    r.1 = c ∧ r.2.topicId = topic ∧ r.2.get.isSubscribe = true))

instance (topic : UInt64) (c : C) (event : NuzzleEvent E C) :
    Decidable (UnsubscribesFrom topic c event) :=
  inferInstanceAs (Decidable (∃ r ∈ event.updated,
    r.1 = c ∧ r.2.topicId = topic ∧ r.2.get.isSubscribe = false))

/-- The consumer is subscribed, every engine is connected, and from the length `since` on
every prefix of what an engine has been sent balances to something. -/
structure Joined (topic : UInt64) (c : C) (since : E → Nat) (node : NuzzleNode E C) : Prop where
  wired : Wired node
  agrees : AgreesOn topic node
  connected : ∀ e, e ∈ node.nuzzle.engineConnections
  member : c ∈ node.nuzzle.subscriptions.get topic
  balanced : ∀ e k, since e ≤ k → k ≤ (node.updates e).length →
    0 < balance topic ((node.updates e).take k)

omit [DecidableEq E] [DecidableEq C] in
theorem live_pos (h : c ∈ node.nuzzle.subscriptions.get topic) : 0 < node.live topic :=
  List.length_pos_of_mem h

/-- The consumer joins with its subscribe. -/
theorem joined_of_subscribe (hwired : Wired node) (hagree : AgreesOn topic node)
    (hconn : ∀ e, e ∈ node.nuzzle.engineConnections) (hsub : SubscribesTo topic c event)
    (h : Steps next node event node') :
    Joined topic c (fun e => (node'.updates e).length) node' := by
  obtain ⟨⟨c', m⟩, hupdated, rfl, rfl, hs⟩ := hsub
  cases event with
  | update c' memory m' =>
      simp only [NuzzleEvent.updated, Option.mem_def, Option.some.injEq, Prod.mk.injEq]
        at hupdated
      obtain ⟨rfl, rfl⟩ := hupdated
      obtain ⟨hconns, -, -, hown⟩ := updates_next_update h
      have hagree' : AgreesOn m'.topicId node' :=
        (agreesOn_next_iff hwired hagree h).mpr (by simp [ConnectsIdle, NuzzleEvent.connected])
      simp only [hs, if_true] at hown
      have hmember : c' ∈ node'.nuzzle.subscriptions.get m'.topicId := by
        rw [hown]
        simp
      have hconn' : ∀ e, e ∈ node'.nuzzle.engineConnections := by
        rw [hconns]
        exact hconn
      refine ⟨wired_next hwired h, hagree', hconn', hmember, fun e k hle hk => ?_⟩
      have hlive := live_pos hmember
      rw [List.take_of_length_le hle, hagree' e (hconn' e)]
      omega
  | connect | publish => simp [NuzzleEvent.updated] at hupdated

/-- No step but its own unsubscribe undoes that. -/
theorem joined_next (hinv : Joined topic c since node)
    (hstays : ¬ UnsubscribesFrom topic c event) (h : Steps next node event node') :
    Joined topic c since node' := by
  cases event with
  | connect e => exact absurd (hinv.connected e) (connect_next h).1
  | publish e m =>
      obtain ⟨hconns, hupd, hsubs⟩ := updates_next_publish h
      have hagree := (agreesOn_next_iff hinv.wired hinv.agrees h).mpr
        (by simp [ConnectsIdle, NuzzleEvent.connected])
      refine ⟨wired_next hinv.wired h, hagree, ?_, ?_, ?_⟩
      · rw [hconns]
        exact hinv.connected
      · rw [hsubs]
        exact hinv.member
      · rw [hupd]
        exact hinv.balanced
  | update c' memory m =>
      obtain ⟨hconns, hsent, hother, hown⟩ := updates_next_update h
      have hagree := (agreesOn_next_iff hinv.wired hinv.agrees h).mpr
        (by simp [ConnectsIdle, NuzzleEvent.connected])
      have hconn : ∀ e, e ∈ node'.nuzzle.engineConnections := by
        rw [hconns]
        exact hinv.connected
      have hmember : c ∈ node'.nuzzle.subscriptions.get topic := by
        by_cases ht : topic = m.topicId
        · subst ht
          by_cases hs : m.get.isSubscribe = true
          · simp only [hs, if_true] at hown
            rw [hown]
            exact List.mem_append_left _ hinv.member
          · simp only [hs, Bool.false_eq_true, if_false] at hown
            have hc : c ≠ c' := fun heq =>
              hstays ⟨(c', m), rfl, heq.symm, rfl, by simpa using hs⟩
            rw [hown.2]
            exact (List.mem_erase_of_ne hc).mpr hinv.member
        · rw [hother topic ht]
          exact hinv.member
      refine ⟨wired_next hinv.wired h, hagree, hconn, hmember, fun e k hle hk => ?_⟩
      obtain ⟨sent, -, hupd⟩ := hsent e
      rw [List.count_eq_one_of_mem hinv.wired.nodup (hinv.connected e),
        List.replicate_one] at hupd
      by_cases hold : k ≤ (node.updates e).length
      · rw [hupd, List.take_append_of_le_length hold]
        exact hinv.balanced e k hle hold
      · -- the whole of what has been sent, which balances to the entries there are
        have hall : (node'.updates e).length ≤ k := by
          rw [hupd, List.length_append, List.length_singleton]
          omega
        have hlive := live_pos hmember
        rw [List.take_of_length_le hall, hagree e (hconn e)]
        omega

theorem joined_run {trace : List (NuzzleNode E C × NuzzleEvent E C)}
    (h : Run (Steps next) node trace node') (hinv : Joined topic c since node)
    (hstays : ∀ x ∈ trace, ¬ UnsubscribesFrom topic c x.2) : Joined topic c since node' :=
  h.invariant (C := fun _ event => ¬ UnsubscribesFrom topic c event)
    (I := Joined topic c since) hstays hinv
    fun _ _ _ hinv hstay hstep => joined_next hinv hstay hstep

end NuzzleNode

/-! ## The system -/

namespace State

variable {B E N C : Type}
variable [DecidableEq B] [DecidableEq E] [DecidableEq N] [DecidableEq C]
variable {groupSize : UInt16} {steps : Trace B Unit E N C} {s s₀ : State B Unit E N C}
  {n : N} {c : C} {topic : UInt64} {since : E → Nat}

/-- The consumer has joined at its nuzzle and at every engine. -/
structure Served (n : N) (c : C) (topic : UInt64) (since : E → Nat)
    (s : State B Unit E N C) : Prop where
  joined : NuzzleNode.Joined topic c since (s.nuzzleNode n)
  handled : ∀ e, since e ≤ (s.updates (n, e)).received.length
  balanced : ∀ e, EngineNode.Balanced (s.engineNode e)

omit [DecidableEq B] [DecidableEq E] [DecidableEq C] in
/-- Every engine lists the nuzzle of a consumer that has joined. -/
theorem Served.listed (h : Served n c topic since s) (e : E) :
    n ∈ (s.engine e).subscriptions.get topic := by
  have hlen : (s.updates (n, e)).received.length ≤ (s.updates (n, e)).sent.length :=
    (s.updates (n, e)).received_prefix_sent.length_le
  have hpos := h.joined.balanced e _ (h.handled e) hlen
  have htake : (s.updates (n, e)).sent.take (s.updates (n, e)).received.length =
      (s.updates (n, e)).received := by
    simp [Channel.sent]
  change 0 < balance topic ((s.updates (n, e)).sent.take _) at hpos
  rw [htake] at hpos
  exact (h.balanced e).mem_subscriptions hpos

/-- The consumer stays joined. -/
theorem served_throughout (h : Run (Steps next) s₀ steps s) (hinit : Served n c topic since s₀)
    (hstays : ∀ x ∈ steps, ∀ event ∈ nuzzleEvent n x.1 x.2,
      ¬ NuzzleNode.UnsubscribesFrom topic c event) :
    Throughout (Served n c topic since) steps s := by
  refine h.throughout (C := fun s a => ∀ event ∈ nuzzleEvent n s a,
    ¬ NuzzleNode.UnsubscribesFrom topic c event) hstays hinit ?_
  intro s a s' hinv hstay hstep
  refine ⟨?_, fun e => ?_, fun e => ?_⟩
  · exact (nuzzleNode_simulates n s a s' hstep).preserves hinv.joined
      fun event hev hnode => NuzzleNode.joined_next hinv.joined (hstay event hev) hnode
  · exact (engineNode_simulates e s a s' hstep).preserves
      (I := fun node => since e ≤ (node.updates n).length) (hinv.handled e)
      fun event _ hnode => (hinv.handled e).trans (EngineNode.length_updates_next hnode n)
  · exact (engineNode_simulates e s a s' hstep).preserves (hinv.balanced e)
      fun event _ hnode => EngineNode.balanced_next (hinv.balanced e) hnode

omit [DecidableEq B] [DecidableEq E] [DecidableEq N] [DecidableEq C] in
/-- What comes from step `j` on comes after an earlier step `i`. -/
theorem mem_drop_of_lt {i j : Nat} {y z : State B Unit E N C × Action B Unit E N C}
    (hy : steps[j]? = some y) (hij : i < j) (hz : z ∈ [y] ++ steps.drop (j + 1)) :
    z ∈ steps.drop (i + 1) := by
  obtain ⟨hj, hget⟩ := List.getElem?_eq_some_iff.mp hy
  have hdrop : steps.drop j = [y] ++ steps.drop (j + 1) := by
    rw [List.singleton_append, ← hget, List.getElem_cons_drop]
  have hsplit : (steps.drop (i + 1)).drop (j - (i + 1)) = steps.drop j := by
    rw [List.drop_drop, show i + 1 + (j - (i + 1)) = j by omega]
  rw [← hdrop, ← hsplit] at hz
  exact List.mem_of_mem_drop hz

/-- Step `x` is the subscribe of the consumer, at a nuzzle that is connected to every
engine, and before step `y` every engine has handled what the nuzzle had forwarded with it. -/
def Joins (n : N) (c : C) (topic : UInt64)
    (x y : State B Unit E N C × Action B Unit E N C) : Prop :=
  (∃ event ∈ nuzzleEvent n x.1 x.2, NuzzleNode.SubscribesTo topic c event) ∧
  (∀ e, e ∈ (x.1.nuzzle n).engineConnections) ∧
  ∀ s₂ ∈ next x.1 x.2, ∀ e,
    (s₂.updates (n, e)).sent.length ≤ (y.1.updates (n, e)).received.length

/-- The consumer does not unsubscribe in a step. -/
def Stays (n : N) (c : C) (topic : UInt64) (s : State B Unit E N C)
    (a : Action B Unit E N C) : Prop :=
  ∀ event ∈ nuzzleEvent n s a, ¬ NuzzleNode.UnsubscribesFrom topic c event

/-- The nuzzle connects to no engine in a step unless the topic has no entry at it. -/
def ConnectsIdle (n : N) (topic : UInt64) (s : State B Unit E N C)
    (a : Action B Unit E N C) : Prop :=
  ∀ event ∈ nuzzleEvent n s a, NuzzleNode.ConnectsIdle topic (s.nuzzleNode n) event

instance [Fintype E] (n : N) (c : C) (topic : UInt64)
    (x y : State B Unit E N C × Action B Unit E N C) : Decidable (Joins n c topic x y) :=
  inferInstanceAs (Decidable
    ((∃ event ∈ nuzzleEvent n x.1 x.2, NuzzleNode.SubscribesTo topic c event) ∧
    (∀ e, e ∈ (x.1.nuzzle n).engineConnections) ∧
    ∀ s₂ ∈ next x.1 x.2, ∀ e,
      (s₂.updates (n, e)).sent.length ≤ (y.1.updates (n, e)).received.length))

instance (n : N) (c : C) (topic : UInt64) (s : State B Unit E N C)
    (a : Action B Unit E N C) : Decidable (Stays n c topic s a) :=
  inferInstanceAs (Decidable
    (∀ event ∈ nuzzleEvent n s a, ¬ NuzzleNode.UnsubscribesFrom topic c event))

instance (n : N) (topic : UInt64) (s : State B Unit E N C) (a : Action B Unit E N C) :
    Decidable (ConnectsIdle n topic s a) :=
  inferInstanceAs (Decidable
    (∀ event ∈ nuzzleEvent n s a, NuzzleNode.ConnectsIdle topic (s.nuzzleNode n) event))

/-- At the end of a run, with nothing in flight, every consumer of the nuzzle that had
joined the topic before the pump handled a publish on it, and has stayed, has been
delivered the message. -/
def NoLoss (n : N) (topic : UInt64) (steps : Trace B Unit E N C) (s : State B Unit E N C) :
    Prop :=
  ∀ (c : C) (i j : Nat) (x y : State B Unit E N C × Action B Unit E N C) (k : Handled E),
    steps[i]? = some x → steps[j]? = some y → i < j → Joins n c topic x y →
    (∀ z ∈ steps.drop (i + 1), Stays n c topic z.1 z.2) → handledAt () y.1 y.2 = some k →
    k.publish.topicId = topic → Quiescent s →
    ∃ m ∈ (s.deliveries (n, c)).received, m.key = k.key ∧ m.content = k.publish.content

/-- A consumer that has joined before a step is served in the state the step is taken in. -/
theorem served_of_joins {i j : Nat} {x y : State B Unit E N C × Action B Unit E N C}
    (h : Runs groupSize steps s) (hx : steps[i]? = some x) (hy : steps[j]? = some y)
    (hij : i < j) (hjoins : Joins n c topic x y)
    (hstays : ∀ z ∈ steps.drop (i + 1), Stays n c topic z.1 z.2)
    (hidle : ∀ z ∈ steps, ConnectsIdle n topic z.1 z.2) :
    ∃ since, Served n c topic since y.1 := by
  obtain ⟨⟨event, hevent, hsub⟩, hconn, hhandled⟩ := hjoins
  obtain ⟨s₂, hbefore, hstep, hrest⟩ := h.cut hx
  have hy' : (steps.drop (i + 1))[j - (i + 1)]? = some y := by
    rw [List.getElem?_drop, show i + 1 + (j - (i + 1)) = j by omega]
    exact hy
  obtain ⟨-, hwait, -, -⟩ := hrest.cut hy'
  -- at the subscribe the nuzzle and its engines agree on the topic
  have hagree : NuzzleNode.AgreesOn topic (x.1.nuzzleNode n) := by
    refine ((NuzzleNode.agreesOn_throughout_iff (hbefore.nuzzleNode n) topic).mpr ?_).2
    exact forall_mem_projectTrace.mpr fun z hz => hidle z (List.mem_of_mem_take hz)
  have hnode := (nuzzleNode_simulates n x.1 x.2 s₂ hstep).step_of_event hevent
  have hjoined := NuzzleNode.joined_of_subscribe (NuzzleNode.wired_run (hbefore.nuzzleNode n))
    hagree hconn hsub hnode
  have hlater := NuzzleNode.joined_run (Run.project (nuzzleNode_simulates n) hwait) hjoined
    (forall_mem_projectTrace
      (Q := fun (_ : NuzzleNode E C) event => ¬ NuzzleNode.UnsubscribesFrom topic c event)
      |>.mpr fun z hz => hstays z (List.mem_of_mem_take hz))
  obtain ⟨-, hrun, -, -⟩ := h.cut hy
  exact ⟨_, hlater, fun e => hhandled s₂ hstep e, fun e =>
    EngineNode.balanced_run (hrun.engineNode e)⟩

/-- A key is new when the pump gives it out. -/
theorem fresh_key {j : Nat} {y : State B Unit E N C × Action B Unit E N C} {k : Handled E}
    (h : Runs groupSize steps s) (hfew : (handledBy () steps).length ≤ 2 ^ 64)
    (hy : steps[j]? = some y) (hk : handledAt () y.1 y.2 = some k) :
    ∀ z ∈ handledBy () (steps.take j), z.key ≠ k.key := by
  have hkeys := (h.numbered ()).keys_nodup hfew
  obtain ⟨hj, hget⟩ := List.getElem?_eq_some_iff.mp hy
  have hcut : steps = steps.take j ++ y :: steps.drop (j + 1) := by
    rw [← hget, List.getElem_cons_drop, List.take_append_drop]
  have hsplit : handledBy () steps =
      handledBy () (steps.take j) ++ k :: handledBy () (steps.drop (j + 1)) := by
    conv_lhs => rw [hcut, handledBy_append]
    simp [handledBy, hk]
  rw [hsplit, List.map_append, List.map_cons] at hkeys
  intro z hz
  exact (List.nodup_append.mp hkeys).2.2 z.key (List.mem_map_of_mem hz) k.key
    (List.mem_cons_self ..)

/-- While every state lists the nuzzle at an engine, a prepare with a new key goes out to
the nuzzle. -/
theorem relays_of_listed {t₁ t₂ : Trace B Unit E N C} {s₁ : State B Unit E N C} {key : Key}
    (hbefore : Runs groupSize t₁ s₁) (hrest : Run (Steps next) s₁ t₂ s)
    (hfresh : ∀ z ∈ handledBy () t₁, z.key ≠ key) {e : E}
    (hlisted : ∀ z ∈ t₂, n ∈ (z.1.engine e).subscriptions.get key.1) :
    EngineNode.Relays n key (s.engineNode e) := by
  refine EngineNode.relays_run (Run.project (engineNode_simulates e) hrest) ?_ ?_
  · -- nothing with the key has reached the engine yet
    rintro ⟨⟩ ⟨m, hm, hkey⟩
    obtain ⟨z, hz, rfl⟩ := hbefore.genuine.prepares () e m (Channel.mem_sent_of_received hm)
    exact absurd hkey (hfresh z hz)
  · exact forall_mem_projectTrace
      (Q := fun (node : EngineNode Unit N) _ => n ∈ node.engine.subscriptions.get key.1)
      |>.mpr fun z hz _ _ => hlisted z hz

/-- While every state has the consumer subscribed, a message with a new key is handed to
it in every round. -/
theorem rounds_le_of_subscribed [Fintype E] (hpos : 0 < groupSize.toNat)
    {t₁ t₂ : Trace B Unit E N C} {s₁ : State B Unit E N C} {key : Key}
    (hbefore : Runs groupSize t₁ s₁) (hrest : Run (Steps next) s₁ t₂ s)
    (hfresh : ∀ z ∈ handledBy () t₁, z.key ≠ key)
    (hsubscribed : ∀ z ∈ t₂, c ∈ (z.1.nuzzle n).subscriptions.get key.1) :
    NuzzleNode.deliveryRounds groupSize ((s.nuzzleNode n).received key) ≤
      copies key (s.deliveries (n, c)).sent := by
  have hnone : (s₁.nuzzleNode n).received key = 0 := by
    refine Finset.sum_eq_zero fun e _ => Nat.eq_zero_of_not_pos fun hcopy => ?_
    obtain ⟨m, hm, hkey⟩ := copies_pos.mp hcopy
    obtain ⟨⟨⟩, z, hz, hzkey, -⟩ := hbefore.genuine.fanouts e n m
      (Channel.mem_sent_of_received hm)
    exact hfresh z hz (hzkey.symm.trans hkey)
  refine NuzzleNode.rounds_le_copies_run hpos (Run.project (nuzzleNode_simulates n) hrest)
    (NuzzleNode.counted_run hpos (hbefore.nuzzleNode n)) hnone ?_
  exact forall_mem_projectTrace
    (Q := fun (node : NuzzleNode E C) _ => c ∈ node.nuzzle.subscriptions.get key.1)
    |>.mpr fun z hz _ _ => hsubscribed z hz

/-- In a run of at most 2^64 publishes through one pump with every engine connected,
nobody who has joined a topic loses a message on it, if the nuzzle connects to its engines
only while nobody is subscribed to the topic. -/
theorem noLoss [Fintype E] (h : Runs groupSize steps s) (hpos : 0 < groupSize.toNat)
    (hcard : Fintype.card E = groupSize.toNat) (hfew : (handledBy () steps).length ≤ 2 ^ 64)
    (hconn : AllConnected () steps) (hidle : ∀ z ∈ steps, ConnectsIdle n topic z.1 z.2) :
    NoLoss n topic steps s := by
  intro c i j x y k hx hy hij hjoins hstays hk htopic hquiet
  obtain ⟨-, hprepares, -, -, hfanouts, -, hdeliveries⟩ := hquiet
  have hfresh := fresh_key h hfew hy hk
  have hmem : k ∈ handledBy () steps :=
    List.mem_filterMap.mpr ⟨y, List.mem_of_getElem? hy, hk⟩
  obtain ⟨since, hserved⟩ := served_of_joins h hx hy hij hjoins hstays hidle
  obtain ⟨s₄, hbefore, hstep, hafter⟩ := h.cut hy
  have hrest : Run (Steps next) y.1 ([(y.1, y.2)] ++ steps.drop (j + 1)) s :=
    (Run.single hstep).trans hafter
  have hall := served_throughout hrest hserved fun z hz =>
    hstays z (mem_drop_of_lt hy hij hz)
  have hkeytopic : k.key.1 = topic := htopic
  have hcopies : ∀ e, 0 < copies k.key (s.fanouts (e, n)).sent := by
    intro e
    have hrelays := relays_of_listed hbefore hrest hfresh (e := e) fun z hz => by
      rw [hkeytopic]
      exact (hall.1 z hz).listed e
    refine hrelays () ⟨k.prepare, ?_, rfl⟩
    change k.prepare ∈ (s.prepares ((), e)).received
    rw [Channel.received_eq_sent (hprepares ((), e))]
    exact (h.numbered ()).mem_prepares.mpr ⟨k, hmem, hconn k hmem e, rfl⟩
  -- one copy from each engine makes up the group
  have hreceived : quorum groupSize ≤ (s.nuzzleNode n).received k.key := by
    refine (quorum_le hpos).trans ?_
    rw [← hcard]
    refine card_le_sum fun e => ?_
    change 0 < copies k.key (s.fanouts (e, n)).received
    rw [Channel.received_eq_sent (hfanouts (e, n))]
    exact hcopies e
  have hrounds := (rounds_pos_iff (quorum_pos groupSize) (quorum_le hpos) _).mpr hreceived
  have hdelivered := rounds_le_of_subscribed hpos hbefore hrest hfresh fun z hz => by
    rw [hkeytopic]
    exact (hall.1 z hz).joined.member
  obtain ⟨m, hm, hkey⟩ := copies_pos.mp (Nat.lt_of_lt_of_le hrounds hdelivered)
  obtain ⟨⟨⟩, z, hz, hzkey, hzcontent⟩ := h.genuine.deliveries n c m hm
  have hzk : z = k := eq_of_key_eq h hfew hz hmem (hzkey.symm.trans hkey)
  refine ⟨m, ?_, hkey, by rw [hzcontent, hzk]⟩
  rwa [Channel.received_eq_sent (hdeliveries (n, c))]

/-- One consumer subscribes in the steps `first`, another one after it; the first one
unsubscribes and a publish follows. -/
def earlySubscriber (b : B) (e : E) (n : N) (c c' : C)
    (first : List (Action B Unit E N C)) : List (Action B Unit E N C) :=
  [.pumpConnectToEngine () e, .connectToPump b (), .connectToNuzzle c n,
    .connectToNuzzle c' n] ++ first ++
  [.updateSubscribtion c' (.on 7 1), .nuzzleOnUpdate c' n (fun _ => default),
    .engineOnUpdate n e, .updateSubscribtion c (.on 7 0),
    .nuzzleOnUpdate c n (fun _ => default), .engineOnUpdate n e,
    .publish b 5 (.on 7 [1]), .pumpOnPublish b () default,
    .engineOnPrepare () e default default, .pumpOnPrepareAck e ()]

/-- Consumer 0 subscribes before its nuzzle has connected to the engine, so the engine
never hears of it, and its unsubscribe takes the nuzzle off the engine's list. -/
theorem earlySubscriber_not_noLoss :
    ¬ ∀ (steps : Trace (Fin 1) Unit (Fin 1) (Fin 1) (Fin 2))
      (s : State (Fin 1) Unit (Fin 1) (Fin 1) (Fin 2)), Runs 1 steps s →
        ConnectedFirst steps → ∀ id, FixedClientId id steps →
        (handledBy () steps).length < 2 ^ 64 → ∀ n topic, NoLoss n topic steps s := by
  intro hclaim
  obtain ⟨steps, s, hrun, hconn, hid, hfew, ⟨x, hx, y, hy, hjoins, k, hk, htopic⟩, hstays,
      hquiet, hnothing⟩ :=
    exists_run_of_execute
      (earlySubscriber 0 0 0 0 1 [.updateSubscribtion 0 (.on 7 1),
        .nuzzleOnUpdate 0 0 (fun _ => default), .nuzzleConnectToEngine 0 0]) next
      (start 1 : State (Fin 1) Unit (Fin 1) (Fin 1) (Fin 2))
      (fun steps s => ConnectedFirst steps ∧ FixedClientId (fun _ => 0) steps ∧
        (handledBy () steps).length < 2 ^ 64 ∧
        (∃ x ∈ steps[8]?, ∃ y ∈ steps[14]?, Joins 0 1 7 x y ∧
          ∃ k ∈ handledAt () y.1 y.2, k.publish.topicId = 7) ∧
        (∀ z ∈ steps.drop 9, Stays 0 1 7 z.1 z.2) ∧ Quiescent s ∧
        (s.deliveries (0, 1)).received = [])
      (by decide +kernel)
  obtain ⟨m, hm, -⟩ := hclaim steps s hrun hconn (fun _ => 0) hid hfew 0 7 1 8 14 x y k hx hy
    (by decide) hjoins hstays hk htopic hquiet
  rw [hnothing] at hm
  cases hm

/-- With the engine connected first it keeps the nuzzle for consumer 1, and keeps it twice. -/
theorem noLoss_connectedFirst :
    ∃ (steps : Trace (Fin 1) Unit (Fin 1) (Fin 1) (Fin 2))
      (s : State (Fin 1) Unit (Fin 1) (Fin 1) (Fin 2)), Runs 1 steps s ∧ Quiescent s ∧
        (∃ x ∈ steps[9]?, ∃ y ∈ steps[15]?, Joins 0 1 7 x y) ∧ NoLoss 0 7 steps s := by
  obtain ⟨steps, s, hrun, hquiet, hjoins, hfew, hconn, hidle⟩ :=
    exists_run_of_execute
      (earlySubscriber 0 0 0 0 1 [.nuzzleConnectToEngine 0 0, .updateSubscribtion 0 (.on 7 1),
          .nuzzleOnUpdate 0 0 (fun _ => default), .engineOnUpdate 0 0] ++
        [.nuzzleOnPublish 0 0, .nuzzleOnPublish 0 0, .consumerOnPublish 0 1 6 6,
          .consumerOnPublish 0 1 7 7]) next
      (start 1 : State (Fin 1) Unit (Fin 1) (Fin 1) (Fin 2))
      (fun steps s => Quiescent s ∧ (∃ x ∈ steps[9]?, ∃ y ∈ steps[15]?, Joins 0 1 7 x y) ∧
        (handledBy () steps).length ≤ 2 ^ 64 ∧ ConnectedFirst steps ∧
        ∀ z ∈ steps, ConnectsIdle 0 7 z.1 z.2)
      (by decide +kernel)
  exact ⟨steps, s, hrun, hquiet, hjoins,
    noLoss hrun (by decide) (by decide) hfew (hconn.allConnected hrun ()) hidle⟩

end State

end Firehose.Cluster
