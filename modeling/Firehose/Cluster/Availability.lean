import Firehose.Cluster.Draining

set_option autoImplicit false

/-!
# Delivery without a minority

A message needs the copies of a quorum.  So a consumer that has joined at the engines of a
quorum is delivered every message that goes out to them, even if no other engine ever
takes a step again.
-/

namespace Firehose.Cluster

open Firehose.Api Firehose.Foundation Firehose.Node

namespace State

variable {B E N C : Type}
variable [DecidableEq B] [DecidableEq E] [DecidableEq N] [DecidableEq C]
variable {groupSize : UInt16} {steps : Trace B Unit E N C} {s s₀ : State B Unit E N C}
  {Q : Finset E} {n : N} {c : C} {topic : UInt64} {since : E → Nat} {k : Handled E}

/-! ## Joining at some of the engines -/

/-- The consumer has joined at its nuzzle and at some engines. -/
structure ServedWithin (Q : Finset E) (n : N) (c : C) (topic : UInt64) (since : E → Nat)
    (s : State B Unit E N C) : Prop where
  joined : NuzzleNode.Joined topic c since (s.nuzzleNode n)
  handled : ∀ e ∈ Q, since e ≤ (s.updates (n, e)).received.length
  balanced : ∀ e ∈ Q, EngineNode.Balanced (s.engineNode e)

omit [DecidableEq B] [DecidableEq E] [DecidableEq C] in
/-- These engines list the nuzzle. -/
theorem ServedWithin.listed (h : ServedWithin Q n c topic since s) {e : E} (he : e ∈ Q) :
    n ∈ (s.engine e).subscriptions.get topic := by
  have hlen : (s.updates (n, e)).received.length ≤ (s.updates (n, e)).sent.length :=
    (s.updates (n, e)).received_prefix_sent.length_le
  have hpos := h.joined.balanced e _ (h.handled e he) hlen
  have htake : ((s.nuzzleNode n).updates e).take (s.updates (n, e)).received.length =
      (s.updates (n, e)).received := by
    simp [nuzzleNode, Channel.sent]
  rw [htake] at hpos
  exact (h.balanced e he).mem_subscriptions hpos

/-- The consumer stays joined there. -/
theorem servedWithin_throughout (h : Run (Steps next) s₀ steps s)
    (hinit : ServedWithin Q n c topic since s₀)
    (hstays : ∀ z ∈ steps, Stays n c topic z.1 z.2) :
    Throughout (ServedWithin Q n c topic since) steps s := by
  refine h.throughout (C := fun s a => Stays n c topic s a) hstays hinit ?_
  intro s a s' hinv hstay hstep
  refine ⟨?_, fun e he => ?_, fun e he => ?_⟩
  · exact (nuzzleNode_simulates n s a s' hstep).preserves hinv.joined
      fun event hev hnode => NuzzleNode.joined_next hinv.joined (hstay event hev) hnode
  · exact (engineNode_simulates e s a s' hstep).preserves
      (I := fun node => since e ≤ (node.updates n).length) (hinv.handled e he)
      fun event _ hnode => (hinv.handled e he).trans (EngineNode.length_updates_next hnode n)
  · exact (engineNode_simulates e s a s' hstep).preserves (hinv.balanced e he)
      fun event _ hnode => EngineNode.balanced_next (hinv.balanced e he) hnode

/-- Step `x` is the subscribe of the consumer, at a nuzzle that is connected to every
engine, and before step `y` some engines have handled what the nuzzle had forwarded to them
with it. -/
def JoinsWithin (Q : Finset E) (n : N) (c : C) (topic : UInt64)
    (x y : State B Unit E N C × Action B Unit E N C) : Prop :=
  (∃ event ∈ nuzzleEvent n x.1 x.2, NuzzleNode.SubscribesTo topic c event) ∧
  (∀ e, e ∈ (x.1.nuzzle n).engineConnections) ∧
  ∀ s₂ ∈ next x.1 x.2, ∀ e ∈ Q,
    (s₂.updates (n, e)).sent.length ≤ (y.1.updates (n, e)).received.length

instance [Fintype E] (Q : Finset E) (n : N) (c : C) (topic : UInt64)
    (x y : State B Unit E N C × Action B Unit E N C) :
    Decidable (JoinsWithin Q n c topic x y) :=
  inferInstanceAs (Decidable
    ((∃ event ∈ nuzzleEvent n x.1 x.2, NuzzleNode.SubscribesTo topic c event) ∧
    (∀ e, e ∈ (x.1.nuzzle n).engineConnections) ∧
    ∀ s₂ ∈ next x.1 x.2, ∀ e ∈ Q,
      (s₂.updates (n, e)).sent.length ≤ (y.1.updates (n, e)).received.length))

/-- A consumer that has joined before a step is served in the state the step is taken in. -/
theorem servedWithin_of_joins {i j : Nat} {x y : State B Unit E N C × Action B Unit E N C}
    (h : Runs groupSize steps s) (hx : steps[i]? = some x) (hy : steps[j]? = some y)
    (hij : i < j) (hjoins : JoinsWithin Q n c topic x y)
    (hstays : ∀ z ∈ steps.drop (i + 1), Stays n c topic z.1 z.2)
    (hidle : ∀ z ∈ steps, ConnectsIdle n topic z.1 z.2) :
    ∃ since, ServedWithin Q n c topic since y.1 := by
  obtain ⟨⟨event, hevent, hsub⟩, hconn, hhandled⟩ := hjoins
  obtain ⟨s₂, hbefore, hstep, hrest⟩ := h.cut hx
  have hy' : (steps.drop (i + 1))[j - (i + 1)]? = some y := by
    rw [List.getElem?_drop, show i + 1 + (j - (i + 1)) = j by omega]
    exact hy
  obtain ⟨-, hwait, -, -⟩ := hrest.cut hy'
  have hagree : NuzzleNode.AgreesOn topic (x.1.nuzzleNode n) := by
    refine ((NuzzleNode.agreesOn_throughout_iff (hbefore.nuzzleNode n) topic).mpr ?_).2
    exact forall_mem_projectTrace.mpr fun z hz => hidle z (List.mem_of_mem_take hz)
  have hnode := (nuzzleNode_simulates n x.1 x.2 s₂ hstep).step_of_event hevent
  have hjoined := NuzzleNode.joined_of_subscribe (NuzzleNode.wired_run (hbefore.nuzzleNode n))
    hagree hconn hsub hnode
  have hlater := NuzzleNode.joined_run (Run.project (nuzzleNode_simulates n) hwait) hjoined
    (forall_mem_projectTrace
      (Q := fun (_ : NuzzleNode E C) event => ¬ NuzzleNode.UnsubscribesFrom topic c event)
      |>.mpr fun z hz => hstays z (List.mem_of_mem_take hz))
  obtain ⟨-, hrun, -, -⟩ := h.cut hy
  exact ⟨_, hlater, fun e he => hhandled s₂ hstep e he, fun e _ =>
    EngineNode.balanced_run (hrun.engineNode e)⟩

/-! ## What a quorum sends is delivered -/

/-- The consumer had joined at some engines before the pump handled a publish, has stayed,
and the publish went out to these engines. -/
def AwaitedFrom (Q : Finset E) (n : N) (c : C) (topic : UInt64)
    (steps : Trace B Unit E N C) (k : Handled E) : Prop :=
  ∃ (i j : Nat) (x y : State B Unit E N C × Action B Unit E N C),
    steps[i]? = some x ∧ steps[j]? = some y ∧ i < j ∧ JoinsWithin Q n c topic x y ∧
    (∀ z ∈ steps.drop (i + 1), Stays n c topic z.1 z.2) ∧ handledAt () y.1 y.2 = some k ∧
    k.publish.topicId = topic ∧ ∀ e ∈ Q, e ∈ k.before.engineConnections

/-- The consumer has got the message. -/
def Delivered (n : N) (c : C) (k : Handled E) (s : State B Unit E N C) : Prop :=
  ∃ m ∈ (s.deliveries (n, c)).received, m.key = k.key ∧ m.content = k.publish.content

/-- Nothing is on its way to the consumer through these engines. -/
def AtRest (Q : Finset E) (n : N) (c : C) (s : State B Unit E N C) : Prop :=
  (∀ e ∈ Q, (s.prepares ((), e)).queue = [] ∧ (s.fanouts (e, n)).queue = []) ∧
    (s.deliveries (n, c)).queue = []

theorem delivered_of_atRest [Fintype E] (h : Runs groupSize steps s)
    (hpos : 0 < groupSize.toNat) (hfew : (handledBy () steps).length ≤ 2 ^ 64)
    (hidle : ∀ z ∈ steps, ConnectsIdle n topic z.1 z.2) (hquorum : quorum groupSize ≤ Q.card)
    (hawaited : AwaitedFrom Q n c topic steps k) (hrest : AtRest Q n c s) :
    Delivered n c k s := by
  obtain ⟨i, j, x, y, hx, hy, hij, hjoins, hstays, hk, htopic, hconn⟩ := hawaited
  have hfresh := fresh_key h hfew hy hk
  have hmem : k ∈ handledBy () steps :=
    List.mem_filterMap.mpr ⟨y, List.mem_of_getElem? hy, hk⟩
  obtain ⟨since, hserved⟩ := servedWithin_of_joins h hx hy hij hjoins hstays hidle
  obtain ⟨s₄, hbefore, hstep, hafter⟩ := h.cut hy
  have hlater : Run (Steps next) y.1 ([(y.1, y.2)] ++ steps.drop (j + 1)) s :=
    (Run.single hstep).trans hafter
  have hall := servedWithin_throughout hlater hserved fun z hz =>
    hstays z (mem_drop_of_lt hy hij hz)
  have hkeytopic : k.key.1 = topic := htopic
  have hcopies : ∀ e ∈ Q, 1 ≤ copies k.key ((s.nuzzleNode n).fanouts e) := by
    intro e he
    have hrelays := relays_of_listed hbefore hlater hfresh (e := e) fun z hz => by
      rw [hkeytopic]
      exact (hall.1 z hz).listed he
    have hsent : 0 < copies k.key (s.fanouts (e, n)).sent := by
      refine hrelays () ⟨k.prepare, ?_, rfl⟩
      change k.prepare ∈ (s.prepares ((), e)).received
      rw [Channel.received_eq_sent (hrest.1 e he).1]
      exact (h.numbered ()).mem_prepares.mpr ⟨k, hmem, hconn e he, rfl⟩
    change 0 < copies k.key (s.fanouts (e, n)).received
    rwa [Channel.received_eq_sent (hrest.1 e he).2]
  have hreceived : quorum groupSize ≤ (s.nuzzleNode n).received k.key := by
    refine hquorum.trans ((Finset.card_nsmul_le_sum Q _ 1 hcopies).trans' (by simp) |>.trans ?_)
    exact Finset.sum_le_sum_of_subset (Finset.subset_univ Q)
  have hrounds := (rounds_pos_iff (quorum_pos groupSize) (quorum_le hpos) _).mpr hreceived
  have hdelivered := rounds_le_of_subscribed hpos hbefore hlater hfresh fun z hz => by
    rw [hkeytopic]
    exact (hall.1 z hz).joined.member
  obtain ⟨m, hm, hkey⟩ := copies_pos.mp (Nat.lt_of_lt_of_le hrounds hdelivered)
  obtain ⟨⟨⟩, z, hz, hzkey, hzcontent⟩ := h.genuine.deliveries n c m hm
  have hzk : z = k := eq_of_key_eq h hfew hz hmem (hzkey.symm.trans hkey)
  refine ⟨m, ?_, hkey, by rw [hzcontent, hzk]⟩
  rwa [Channel.received_eq_sent hrest.2]

/-! ## It is delivered without the other engines -/

/-- The steps that relay messages to consumers through some engines only. -/
def RelaysWithin (Q : Finset E) : Action B Unit E N C → Prop
  | .engineOnPrepare _ e _ _ => e ∈ Q
  | .nuzzleOnPublish .. | .consumerOnPublish .. => True
  | _ => False

omit [DecidableEq B] [DecidableEq E] [DecidableEq N] [DecidableEq C] in
theorem RelaysWithin.isHandler {a : Action B Unit E N C} (h : RelaysWithin Q a) :
    a.isHandler = true := by
  cases a with
  | engineOnPrepare | nuzzleOnPublish | consumerOnPublish => rfl
  | _ => exact absurd h id

omit [DecidableEq B] [DecidableEq C] [DecidableEq E] in
/-- A relay is no update and no new connection, and no publish is handled in it. -/
theorem RelaysWithin.quiet {a : Action B Unit E N C} (h : RelaysWithin Q a)
    (s : State B Unit E N C) :
    Stays n c topic s a ∧ ConnectsIdle n topic s a ∧ handledAt () s a = none := by
  refine ⟨fun event hev => ?_, fun event hev => ?_, ?_⟩
  · rintro ⟨⟨c', m⟩, hupdated, -⟩
    cases event with
    | update c' memory m => simp [(of_nuzzleEvent hev).1 c' memory m rfl, RelaysWithin] at h
    | connect | publish => simp [NuzzleEvent.updated] at hupdated
  · intro hconn
    cases event with
    | connect e => simp [(of_nuzzleEvent hev).2 e rfl, RelaysWithin] at h
    | publish | update => simp [NuzzleEvent.connected] at hconn
  · cases a with
    | pumpOnPublish => exact absurd h id
    | _ => rfl

/-- When no relay can be made, nothing is on its way. -/
theorem atRest_of_stuck (hstuck : ∀ a, RelaysWithin Q a → next s a = none) (n : N) (c : C) :
    AtRest Q n c s := by
  refine ⟨fun e he => ⟨?_, ?_⟩, ?_⟩
  · by_contra hbusy
    obtain ⟨m, ch, hpop⟩ := Channel.exists_pop? hbusy
    have hnone := hstuck (.engineOnPrepare () e default default) he
    simp [next, hpop] at hnone
  · by_contra hbusy
    obtain ⟨m, ch, hpop⟩ := Channel.exists_pop? hbusy
    have hnone := hstuck (.nuzzleOnPublish e n) trivial
    simp [next, hpop] at hnone
  · by_contra hbusy
    obtain ⟨m, ch, hpop⟩ := Channel.exists_pop? hbusy
    have hnone := hstuck (.consumerOnPublish n c 0 0) trivial
    simp [next, hpop] at hnone

/-- What is awaited stays awaited while the message is relayed. -/
theorem AwaitedFrom.append (h : AwaitedFrom Q n c topic steps k) {rest : Trace B Unit E N C}
    (hstays : ∀ z ∈ rest, Stays n c topic z.1 z.2) :
    AwaitedFrom Q n c topic (steps ++ rest) k := by
  obtain ⟨i, j, x, y, hx, hy, hij, hjoins, hstay, hk⟩ := h
  have hi : i < steps.length := (List.getElem?_eq_some_iff.mp hx).1
  have hj : j < steps.length := (List.getElem?_eq_some_iff.mp hy).1
  refine ⟨i, j, x, y, ?_, ?_, hij, hjoins, fun z hz => ?_, hk⟩
  · rwa [List.getElem?_append_left hi]
  · rwa [List.getElem?_append_left hj]
  · rw [List.drop_append_of_le_length hi] at hz
    rcases List.mem_append.mp hz with hold | hnew
    · exact hstay z hold
    · exact hstays z hnew

/-- In a run of at most 2^64 publishes through one pump, where the nuzzle connects to its
engines only while nobody is subscribed to the topic, a consumer that has joined at a
quorum is delivered every message that goes out to the quorum: relaying through these
engines alone can deliver it, and cannot stop before it does. -/
theorem delivered_with_quorum [Fintype B] [Fintype E] [Fintype N] [Fintype C]
    (h : Runs groupSize steps s) (hpos : 0 < groupSize.toNat)
    (hfew : (handledBy () steps).length ≤ 2 ^ 64)
    (hidle : ∀ z ∈ steps, ConnectsIdle n topic z.1 z.2) (hquorum : quorum groupSize ≤ Q.card)
    (hawaited : AwaitedFrom Q n c topic steps k) :
    (∃ rest s', Run (Steps next) s rest s' ∧ (∀ z ∈ rest, RelaysWithin Q z.2) ∧
      Delivered n c k s') ∧
    ∀ rest s', Run (Steps next) s rest s' → (∀ z ∈ rest, RelaysWithin Q z.2) →
      (∀ a, RelaysWithin Q a → next s' a = none) → Delivered n c k s' := by
  have hend : ∀ rest s', Run (Steps next) s rest s' → (∀ z ∈ rest, RelaysWithin Q z.2) →
      (∀ a, RelaysWithin Q a → next s' a = none) → Delivered n c k s' := by
    intro rest s' hrun hrelays hstuck
    have hquiet : ∀ z ∈ rest, Stays n c topic z.1 z.2 ∧ ConnectsIdle n topic z.1 z.2 ∧
        handledAt () z.1 z.2 = none := fun z hz => (hrelays z hz).quiet z.1
    have hnone : handledBy () rest = [] :=
      List.filterMap_eq_nil_iff.mpr fun z hz => (hquiet z hz).2.2
    refine delivered_of_atRest (h.trans hrun) hpos ?_ ?_ hquorum
      (hawaited.append fun z hz => (hquiet z hz).1) (atRest_of_stuck hstuck n c)
    · rw [handledBy_append, hnone, List.append_nil]
      exact hfew
    · intro z hz
      rcases List.mem_append.mp hz with hold | hnew
      · exact hidle z hold
      · exact (hquiet z hnew).2.1
  refine ⟨?_, hend⟩
  have hwf : WellFounded fun s' s : State B Unit E N C =>
      ∃ a, RelaysWithin Q a ∧ next s a = some s' :=
    Subrelation.wf (fun ⟨a, ha, hone⟩ => ⟨a, ha.isHandler, hone⟩) handlers_wellFounded
  have hprogress : ∀ s : State B Unit E N C, True →
      ¬ (∀ a, RelaysWithin Q a → next s a = none) →
        ∃ a s', RelaysWithin Q a ∧ Steps next s a s' ∧ True := by
    intro s _ hbusy
    push Not at hbusy
    obtain ⟨a, ha, hsome⟩ := hbusy
    obtain ⟨s', hone⟩ := Option.ne_none_iff_exists'.mp hsome
    exact ⟨a, s', ha, hone, trivial⟩
  obtain ⟨rest, s', hrun, hrelays, -, hstuck⟩ :=
    Run.exists_to_of_wellFounded hwf hprogress s trivial
  exact ⟨rest, s', hrun, hrelays, hend rest s' hrun hrelays hstuck⟩

/-- A consumer joins at two engines of three, and a message is published; the third engine
does nothing. -/
def withoutThird (b : B) (e e' e'' : E) (n : N) (c : C) : List (Action B Unit E N C) :=
  [.pumpConnectToEngine () e, .pumpConnectToEngine () e', .pumpConnectToEngine () e'',
    .nuzzleConnectToEngine n e, .nuzzleConnectToEngine n e', .nuzzleConnectToEngine n e'',
    .connectToPump b (), .connectToNuzzle c n, .updateSubscribtion c (.on 7 1),
    .nuzzleOnUpdate c n (fun _ => default), .engineOnUpdate n e, .engineOnUpdate n e',
    .publish b 5 (.on 7 [1]), .pumpOnPublish b () default]

/-- The two engines deliver it. -/
theorem delivered_with_quorum_withoutThird :
    ∃ (steps : Trace (Fin 1) Unit (Fin 3) (Fin 1) (Fin 1))
      (s : State (Fin 1) Unit (Fin 3) (Fin 1) (Fin 1)) (k : Handled (Fin 3)), Runs 3 steps s ∧
        k ∈ handledBy () steps ∧ (s.deliveries (0, 0)).sent = [] ∧
        ∃ rest s', Run (Steps next) s rest s' ∧ (∀ z ∈ rest, RelaysWithin {0, 1} z.2) ∧
          Delivered 0 0 k s' := by
  obtain ⟨steps, s, hrun, hconn, hidle, hnothing, ⟨x, hx, y, hy, hjoins, k, hk, htopic⟩,
      hstays, hfew⟩ :=
    exists_run_of_execute (withoutThird 0 0 1 2 0 0) next
      (start 3 : State (Fin 1) Unit (Fin 3) (Fin 1) (Fin 1))
      (fun steps s => AllConnected () steps ∧ (∀ z ∈ steps, ConnectsIdle 0 7 z.1 z.2) ∧
        (s.deliveries (0, 0)).sent = [] ∧
        (∃ x ∈ steps[9]?, ∃ y ∈ steps[13]?, JoinsWithin {0, 1} 0 0 7 x y ∧
          ∃ k ∈ handledAt () y.1 y.2, k.publish.topicId = 7) ∧
        (∀ z ∈ steps.drop 10, Stays 0 0 7 z.1 z.2) ∧ (handledBy () steps).length ≤ 2 ^ 64)
      (by decide +kernel)
  have hmem : k ∈ handledBy () steps :=
    List.mem_filterMap.mpr ⟨y, List.mem_of_getElem? hy, hk⟩
  have hawaited : AwaitedFrom {0, 1} 0 0 7 steps k :=
    ⟨9, 13, x, y, hx, hy, by decide, hjoins, hstays, hk, htopic, fun e _ => hconn k hmem e⟩
  exact ⟨steps, s, k, hrun, hmem, hnothing,
    (delivered_with_quorum hrun (by decide) hfew hidle (by decide) hawaited).1⟩

end State

end Firehose.Cluster
