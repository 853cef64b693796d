import Firehose.Cluster.Integrity
import Firehose.Cluster.Replication

set_option autoImplicit false

/-!
# Quorums and repeated delivery

A nuzzle counts copies.  A count of copies is a count of engines only while no engine
sends a nuzzle two copies of one message, and an engine that lists a nuzzle twice does.
With one pump, and with every prepare finding each nuzzle listed at most once, a message
is delivered only after a majority holds it, and at most once.
-/

namespace Firehose.Cluster

open Firehose.Api Firehose.Foundation Firehose.Node
open Function (update)

namespace State

variable {B E N C : Type}
variable [DecidableEq B] [DecidableEq E] [DecidableEq N] [DecidableEq C]
variable {groupSize : UInt16} {trace : Trace B Unit E N C} {s : State B Unit E N C}

/-- The prepares that engines handle in a step find each nuzzle listed at most once. -/
def ListsOnce (s : State B Unit E N C) (a : Action B Unit E N C) : Prop :=
  ∀ e, ∀ event ∈ engineEvent e s a, EngineNode.ListsOnce (s.engineNode e) event

instance [Fintype E] (s : State B Unit E N C) (a : Action B Unit E N C) :
    Decidable (ListsOnce s a) :=
  inferInstanceAs
    (Decidable (∀ e, ∀ event ∈ engineEvent e s a, EngineNode.ListsOnce (s.engineNode e) event))

/-- Two publishes handled by the one pump have different keys. -/
theorem eq_of_key_eq (h : Runs groupSize trace s) (hfew : (handledBy () trace).length ≤ 2 ^ 64)
    {x y : Handled E} (hx : x ∈ handledBy () trace) (hy : y ∈ handledBy () trace)
    (hkey : x.key = y.key) : x = y := by
  rw [x.key_eq, y.key_eq, Prod.mk.injEq] at hkey
  exact (h.numbered ()).eq_of_id_eq hfew hx hy hkey.2

/-- An engine has handled each prepare of the one pump at most once. -/
theorem prepared_le_one (h : Runs groupSize trace s)
    (hfew : (handledBy () trace).length ≤ 2 ^ 64) (e : E) (key : Key) :
    (s.engineNode e).prepared key ≤ 1 := by
  have hkeys := (h.numbered ()).keys_nodup hfew
  have hsent : ((s.prepares ((), e)).sent.map RequestPrepareProto.key).Sublist
      ((handledBy () trace).map Handled.key) := by
    have heq := (h.numbered ()).prepares_eq e
    change (s.prepares ((), e)).sent = _ at heq
    rw [heq, List.map_map]
    exact List.filter_sublist.map Handled.key
  have hreceived : ((s.prepares ((), e)).received.map RequestPrepareProto.key).Nodup :=
    hkeys.sublist
      ((((s.prepares ((), e)).received_prefix_sent.sublist).map _).trans hsent)
  have hcount := List.nodup_iff_count_le_one.mp hreceived key
  have hprepared : (s.engineNode e).prepared key =
      (s.prepares ((), e)).received.countP fun m => decide (m.key = key) := by
    simp [EngineNode.prepared, engineNode]
  rw [hprepared]
  simpa [List.count, List.countP_map, Function.comp_def, beq_eq_decide] using hcount

/-- Under that condition no engine sends a nuzzle two copies of one message. -/
theorem copies_fanouts_le_one (h : Runs groupSize trace s)
    (hfew : (handledBy () trace).length ≤ 2 ^ 64) (honce : ∀ x ∈ trace, ListsOnce x.1 x.2)
    (e : E) (n : N) (key : Key) : copies key (s.fanouts (e, n)).sent ≤ 1 := by
  have hproject : ∀ y ∈ projectTrace (engineNode · e) (engineEvent e) trace,
      EngineNode.ListsOnce y.1 y.2 :=
    forall_mem_projectTrace.mpr fun x hx => honce x hx e
  exact (EngineNode.copies_le_prepared_run (h.engineNode e) hproject n key).trans
    (prepared_le_one h hfew e key)

/-- An engine that has sent a copy of a message holds the message. -/
theorem stored_of_mem_fanouts (h : Runs groupSize trace s)
    (hfew : (handledBy () trace).length ≤ 2 ^ 64) {e : E} {n : N} {m : RequestPublishProto}
    (hm : m ∈ (s.fanouts (e, n)).sent) : s.stored e m.key = some m.content := by
  obtain ⟨⟨⟩, x, hx, hkey, hcontent⟩ := h.genuine.fanouts e n m hm
  obtain ⟨p, m', hm', hsame, -⟩ := EngineNode.relayed_run (h.engineNode e) n m hm
  obtain ⟨r, hr⟩ := (EngineNode.stored_run (h.engineNode e)).kept p m' hm'
  rw [← hsame] at hr
  obtain ⟨⟨⟩, y, hy, hkey', rfl⟩ := h.genuine.buffers e m.key r hr
  have hxy : x = y := eq_of_key_eq h hfew hx hy (hkey.symm.trans hkey')
  have hfind : (s.engine e).messageBuffer.find? m.key = some x.prepare.get := hxy ▸ hr
  rw [stored, hfind, hcontent]
  rfl

/-! ## A majority before a delivery -/

section Majority

variable [Fintype E]

/-- Whenever a nuzzle is about to deliver the message it takes next, a majority of the
engines hold that message. -/
def MajorityHolds (groupSize : UInt16) (s : State B Unit E N C) : Prop :=
  ∀ e n m, (s.fanouts (e, n)).queue.head? = some m → (s.nuzzle n).Delivers e m.key →
    quorum groupSize ≤ (Finset.univ.filter fun e' => s.stored e' m.key = some m.content).card

/-- The copies a nuzzle has on record, with the one it takes next, are no more from each
engine than the engine has sent. -/
theorem count_record_le (h : Runs groupSize trace s) (hpos : 0 < groupSize.toNat) {e : E}
    {n : N} {m : RequestPublishProto} (hm : (s.fanouts (e, n)).queue.head? = some m)
    (e' : E) :
    ((s.nuzzle n).messageBuffer.get m.key ++ [e]).count e' ≤
      copies m.key (s.fanouts (e', n)).sent := by
  have hcounted := NuzzleNode.counted_run hpos (h.nuzzleNode n)
  have hle : ((s.nuzzle n).messageBuffer.get m.key).count e' ≤
      copies m.key (s.fanouts (e', n)).received := hcounted.count_le m.key e'
  have hsent : copies m.key (s.fanouts (e', n)).sent =
      copies m.key (s.fanouts (e', n)).received + copies m.key (s.fanouts (e', n)).queue :=
    copies_append _ _ _
  rw [List.count_append, hsent]
  by_cases he : e' = e
  · subst he
    have hqueue : 0 < copies m.key (s.fanouts (e', n)).queue :=
      copies_pos.mpr ⟨m, List.mem_of_head? hm, rfl⟩
    rw [List.count_singleton_self]
    omega
  · rw [List.count_singleton, if_neg (by simpa using Ne.symm he)]
    omega

/-- In a run of at most 2^64 publishes through one pump whose every prepare finds each
nuzzle listed at most once (or in a group of one), a nuzzle delivers only what a majority
of distinct engines hold. -/
theorem majorityHolds (h : Runs groupSize trace s) (hpos : 0 < groupSize.toNat)
    (hfew : (handledBy () trace).length ≤ 2 ^ 64)
    (honce : groupSize = 1 ∨ ∀ x ∈ trace, ListsOnce x.1 x.2) : MajorityHolds groupSize s := by
  intro e n m hm hdelivers
  have hmem : m ∈ (s.fanouts (e, n)).sent := List.mem_append_right _ (List.mem_of_head? hm)
  rcases honce with rfl | honce
  · -- a quorum of one: the engine the copy comes from
    refine Finset.card_pos.mpr ⟨e, ?_⟩
    simpa using stored_of_mem_fanouts h hfew hmem
  · have hcounted := NuzzleNode.counted_run hpos (h.nuzzleNode n)
    have hlen := (hcounted.bounded hpos).delivers_iff e m.key
    rw [hcounted.groupSize_eq] at hlen
    have hquorum : ((s.nuzzle n).messageBuffer.get m.key ++ [e]).length = quorum groupSize := by
      rw [List.length_append, List.length_singleton]
      exact hlen.mp hdelivers
    have hcount := fun e' => count_record_le h hpos hm e'
    rw [← hquorum]
    refine length_le_card_filter ?_ fun e' he' => ?_
    · exact List.nodup_iff_count_le_one.mpr fun e' =>
        (hcount e').trans (copies_fanouts_le_one h hfew honce e' n m.key)
    · have hcopy : 0 < copies m.key (s.fanouts (e', n)).sent :=
        Nat.lt_of_lt_of_le (List.count_pos_iff.mpr he') (hcount e')
      obtain ⟨m', hm', hkey⟩ := copies_pos.mp hcopy
      have hstored := stored_of_mem_fanouts h hfew hm'
      obtain ⟨⟨⟩, x, hx, hxkey, hxcontent⟩ := h.genuine.fanouts e n m hmem
      obtain ⟨⟨⟩, y, hy, hykey, hycontent⟩ := h.genuine.fanouts e' n m' hm'
      have hxy : x = y := eq_of_key_eq h hfew hx hy (by rw [← hxkey, ← hykey, hkey])
      rw [← hkey, hstored, hycontent, hxcontent, hxy]

/-- Two consumers of one nuzzle subscribe to one topic, so each engine lists the nuzzle
twice.  The last step hands the nuzzle the first of two copies from the first engine. -/
def twoConsumers (b : B) (e e' : E) (n : N) (c c' : C) : List (Action B Unit E N C) :=
  [.pumpConnectToEngine () e, .pumpConnectToEngine () e', .nuzzleConnectToEngine n e,
    .nuzzleConnectToEngine n e', .connectToPump b (), .connectToNuzzle c n,
    .connectToNuzzle c' n, .updateSubscribtion c (.on 7 1), .updateSubscribtion c' (.on 7 1),
    .nuzzleOnUpdate c n (fun _ => default), .nuzzleOnUpdate c' n (fun _ => default),
    .engineOnUpdate n e, .engineOnUpdate n e, .engineOnUpdate n e', .engineOnUpdate n e',
    .publish b 5 (.on 7 [1]), .pumpOnPublish b () default,
    .engineOnPrepare () e default default, .nuzzleOnPublish e n]

/-- The second copy from engine 0 completes the quorum while engine 1 holds nothing. -/
theorem twoConsumers_not_majorityHolds :
    ¬ ∀ (trace : Trace (Fin 1) Unit (Fin 2) (Fin 1) (Fin 2))
      (s : State (Fin 1) Unit (Fin 2) (Fin 1) (Fin 2)), Runs 2 trace s →
        ConnectedFirst trace → ∀ id, FixedClientId id trace →
        (handledBy () trace).length < 2 ^ 64 → MajorityHolds 2 s := by
  intro hclaim
  obtain ⟨trace, s, hrun, hconn, hid, hfew, m, hm, hdelivers, hlt⟩ :=
    exists_run_of_execute (twoConsumers 0 0 1 0 0 1) next
      (start 2 : State (Fin 1) Unit (Fin 2) (Fin 1) (Fin 2))
      (fun trace s => ConnectedFirst trace ∧ FixedClientId (fun _ => 0) trace ∧
        (handledBy () trace).length < 2 ^ 64 ∧
        ∃ m ∈ (s.fanouts (0, 0)).queue.head?, (s.nuzzle 0).Delivers 0 m.key ∧
          (Finset.univ.filter fun e' => s.stored e' m.key = some m.content).card < quorum 2)
      (by decide +kernel)
  exact absurd (hclaim trace s hrun hconn (fun _ => 0) hid hfew 0 0 m hm hdelivers)
    (Nat.not_le.mpr hlt)

/-- One consumer, so each engine lists the nuzzle once.  Both engines have sent their copy
and the nuzzle has taken the first. -/
def oneConsumer (b : B) (e e' : E) (n : N) (c : C) : List (Action B Unit E N C) :=
  [.pumpConnectToEngine () e, .pumpConnectToEngine () e', .nuzzleConnectToEngine n e,
    .nuzzleConnectToEngine n e', .connectToPump b (), .connectToNuzzle c n,
    .updateSubscribtion c (.on 7 1), .nuzzleOnUpdate c n (fun _ => default),
    .engineOnUpdate n e, .engineOnUpdate n e', .publish b 5 (.on 7 [1]),
    .pumpOnPublish b () default, .engineOnPrepare () e default default,
    .engineOnPrepare () e' default default, .nuzzleOnPublish e n]

theorem majorityHolds_oneConsumer :
    ∃ (trace : Trace (Fin 1) Unit (Fin 2) (Fin 1) (Fin 1))
      (s : State (Fin 1) Unit (Fin 2) (Fin 1) (Fin 1)), Runs 2 trace s ∧
        (∃ m ∈ (s.fanouts (1, 0)).queue.head?, (s.nuzzle 0).Delivers 1 m.key) ∧
        MajorityHolds 2 s := by
  obtain ⟨trace, s, hrun, hdelivers, hfew, honce⟩ :=
    exists_run_of_execute (oneConsumer 0 0 1 0 0) next
      (start 2 : State (Fin 1) Unit (Fin 2) (Fin 1) (Fin 1))
      (fun trace s =>
        (∃ m ∈ (s.fanouts (1, 0)).queue.head?, (s.nuzzle 0).Delivers 1 m.key) ∧
        (handledBy () trace).length ≤ 2 ^ 64 ∧ ∀ x ∈ trace, ListsOnce x.1 x.2)
      (by decide +kernel)
  exact ⟨trace, s, hrun, hdelivers, majorityHolds hrun (by decide) hfew (Or.inr honce)⟩

end Majority

/-! ## At most one delivery -/

/-- No consumer connection has been handed a message twice. -/
def DeliversOnce (s : State B Unit E N C) : Prop :=
  ∀ n c key, copies key (s.deliveries (n, c)).sent ≤ 1

/-- No consumer that subscribes in a step is subscribed already. -/
def SubscribesOnce (s : State B Unit E N C) (a : Action B Unit E N C) : Prop :=
  ∀ n, ∀ event ∈ nuzzleEvent n s a, NuzzleNode.SubscribesOnce (s.nuzzleNode n) event

instance [Fintype N] (s : State B Unit E N C) (a : Action B Unit E N C) :
    Decidable (SubscribesOnce s a) :=
  inferInstanceAs (Decidable (∀ n, ∀ event ∈ nuzzleEvent n s a,
    NuzzleNode.SubscribesOnce (s.nuzzleNode n) event))

/-- In a run of at most 2^64 publishes through one pump whose every prepare finds each
nuzzle listed at most once, nobody is handed a message twice. -/
theorem deliversOnce [Fintype E] (h : Runs groupSize trace s) (hpos : 0 < groupSize.toNat)
    (hcard : Fintype.card E = groupSize.toNat) (hfew : (handledBy () trace).length ≤ 2 ^ 64)
    (hsubscribes : ∀ x ∈ trace, SubscribesOnce x.1 x.2)
    (honce : ∀ x ∈ trace, ListsOnce x.1 x.2) : DeliversOnce s := by
  intro n c key
  have hreceived : (s.nuzzleNode n).received key ≤ groupSize.toNat := by
    rw [← hcard]
    refine sum_le_card fun e => ?_
    exact (copies_le_of_isPrefix (s.fanouts (e, n)).received_prefix_sent).trans
      (copies_fanouts_le_one h hfew honce e n key)
  -- in every state before a step of the nuzzle its subscribers are distinct
  have hcount : ∀ y ∈ projectTrace (nuzzleNode · n) (nuzzleEvent n) trace,
      (y.1.nuzzle.subscriptions.get key.1).count c ≤ 1 := by
    intro y hy
    obtain ⟨t₁, t₂, node', htrace, hbefore, -, -⟩ := (h.nuzzleNode n).around hy
    refine List.nodup_iff_count_le_one.mp
      (NuzzleNode.subscriptions_nodup_run hbefore ?_ key.1) c
    intro z hz
    exact forall_mem_projectTrace.mpr (fun x hx => hsubscribes x hx n) z
      (by rw [htrace]; exact List.mem_append_left _ hz)
  exact (NuzzleNode.copies_le_rounds_run hpos (h.nuzzleNode n) hcount).trans
    (rounds_le_one (quorum_pos groupSize) (quorum_le hpos) hreceived)

/-- The two consumers go on: the four copies make two rounds of the counter. -/
theorem twoConsumers_not_deliversOnce :
    ¬ ∀ (trace : Trace (Fin 1) Unit (Fin 2) (Fin 1) (Fin 2))
      (s : State (Fin 1) Unit (Fin 2) (Fin 1) (Fin 2)), Runs 2 trace s →
        ConnectedFirst trace → (handledBy () trace).length < 2 ^ 64 →
        (∀ x ∈ trace, SubscribesOnce x.1 x.2) → DeliversOnce s := by
  intro hclaim
  obtain ⟨trace, s, hrun, hconn, hfew, hsubscribes, htwice⟩ :=
    exists_run_of_execute
      (twoConsumers 0 0 1 0 0 1 ++ [.nuzzleOnPublish 0 0, .engineOnPrepare () 1 default default,
        .nuzzleOnPublish 1 0, .nuzzleOnPublish 1 0]) next
      (start 2 : State (Fin 1) Unit (Fin 2) (Fin 1) (Fin 2))
      (fun trace s => ConnectedFirst trace ∧ (handledBy () trace).length < 2 ^ 64 ∧
        (∀ x ∈ trace, SubscribesOnce x.1 x.2) ∧ 1 < copies (7, 0) (s.deliveries (0, 0)).sent)
      (by decide +kernel)
  exact absurd (hclaim trace s hrun hconn hfew hsubscribes 0 0 (7, 0)) (Nat.not_le.mpr htwice)

theorem deliversOnce_oneConsumer :
    ∃ (trace : Trace (Fin 1) Unit (Fin 2) (Fin 1) (Fin 1))
      (s : State (Fin 1) Unit (Fin 2) (Fin 1) (Fin 1)), Runs 2 trace s ∧
        copies (7, 0) (s.deliveries (0, 0)).sent = 1 ∧ DeliversOnce s := by
  obtain ⟨trace, s, hrun, hone, hfew, hsubscribes, honce⟩ :=
    exists_run_of_execute (oneConsumer 0 0 1 0 0 ++ [.nuzzleOnPublish 1 0]) next
      (start 2 : State (Fin 1) Unit (Fin 2) (Fin 1) (Fin 1))
      (fun trace s => copies (7, 0) (s.deliveries (0, 0)).sent = 1 ∧
        (handledBy () trace).length ≤ 2 ^ 64 ∧ (∀ x ∈ trace, SubscribesOnce x.1 x.2) ∧
        ∀ x ∈ trace, ListsOnce x.1 x.2)
      (by decide +kernel)
  exact ⟨trace, s, hrun, hone,
    deliversOnce hrun (by decide) (by decide) hfew hsubscribes honce⟩

end State

end Firehose.Cluster
