import Firehose.Cluster.Joining

set_option autoImplicit false

/-!
# What a quorum of engines retains

A consumer is handed a message only after a quorum of engines has stored it, and engines
forget nothing.  Two quorums share an engine, so every quorum of engines can say what was
delivered, whichever engines are lost.
-/

namespace Firehose.Cluster

open Firehose.Api Firehose.Foundation Firehose.Node

namespace NuzzleNode

variable {E C : Type} [DecidableEq E] [DecidableEq C] [Fintype E]

/-- A consumer is handed a message only when a quorum of copies has come in. -/
theorem quorum_le_of_delivered {groupSize : UInt16} (hpos : 0 < groupSize.toNat)
    {trace : List (NuzzleNode E C × NuzzleEvent E C)} {node : NuzzleNode E C}
    (h : Run (Steps next) (start groupSize) trace node) {c : C} {key : Key}
    (hdelivered : 0 < copies key (node.deliveries c)) :
    quorum groupSize ≤ node.received key := by
  refine (counted_start groupSize).invariant hpos h (D := fun _ _ => True)
    (I := fun node => 0 < copies key (node.deliveries c) → quorum groupSize ≤ node.received key)
    (fun _ _ => trivial) (by simp [start]) ?_ hdelivered
  intro node event node' hcounted hinv _ hstep
  cases event with
  | connect | update =>
      obtain ⟨hfan, hdel, -, -⟩ := fanouts_deliveries_next hstep (by simp)
      simpa [received, hfan, hdel] using hinv
  | publish e m =>
      rw [copies_deliveries_next_publish hpos hcounted hstep, received_next_publish hstep]
      intro hdelivers
      by_cases hk : m.key = key
      · subst hk
        rw [if_pos rfl]
        by_cases hround : node.received m.key % groupSize.toNat + 1 = quorum groupSize
        · have hle := Nat.mod_le (node.received m.key) groupSize.toNat
          omega
        · rw [if_neg fun hboth => hround hboth.2] at hdelivers
          have hold := hinv (by omega)
          omega
      · rw [if_neg fun hboth => hk hboth.1] at hdelivers
        rw [if_neg hk]
        exact hinv (by omega)

end NuzzleNode

namespace State

variable {B E N C : Type}
variable [DecidableEq B] [DecidableEq E] [DecidableEq N] [DecidableEq C] [Fintype E]
variable {groupSize : UInt16} {trace : Trace B Unit E N C} {s : State B Unit E N C}

/-- The engines that hold a message. -/
def holders (s : State B Unit E N C) (m : RequestPublishProto) : Finset E :=
  Finset.univ.filter fun e => s.stored e m.key = some m.content

/-- What a consumer has been handed is held by a quorum of engines. -/
theorem quorum_le_holders (h : Runs groupSize trace s) (hpos : 0 < groupSize.toNat)
    (hfew : (handledBy () trace).length ≤ 2 ^ 64) (honce : ∀ x ∈ trace, ListsOnce x.1 x.2)
    {n : N} {c : C} {m : RequestPublishProto} (hm : m ∈ (s.deliveries (n, c)).sent) :
    quorum groupSize ≤ (s.holders m).card := by
  have hreceived : quorum groupSize ≤ (s.nuzzleNode n).received m.key :=
    NuzzleNode.quorum_le_of_delivered hpos (h.nuzzleNode n) (copies_pos.mpr ⟨m, hm, rfl⟩)
  obtain ⟨⟨⟩, x, hx, hkey, hcontent⟩ := h.genuine.deliveries n c m hm
  -- each engine that has sent a copy holds the message, and has sent no more than one
  have hone : ∀ e, copies m.key ((s.nuzzleNode n).fanouts e) ≤
      if e ∈ s.holders m then 1 else 0 := by
    intro e
    have hsent : copies m.key ((s.nuzzleNode n).fanouts e) ≤
        copies m.key (s.fanouts (e, n)).sent :=
      copies_le_of_isPrefix (s.fanouts (e, n)).received_prefix_sent
    split
    · exact hsent.trans (copies_fanouts_le_one h hfew honce e n m.key)
    · rename_i hnot
      refine (Nat.eq_zero_of_not_pos fun hcopy => hnot ?_).le
      obtain ⟨m', hm', hkey'⟩ := copies_pos.mp (Nat.lt_of_lt_of_le hcopy hsent)
      obtain ⟨⟨⟩, y, hy, hykey, hycontent⟩ := h.genuine.fanouts e n m' hm'
      have hxy : x = y := eq_of_key_eq h hfew hx hy (by rw [← hkey, ← hykey, hkey'])
      have hstored := stored_of_mem_fanouts h hfew hm'
      rw [hkey', hycontent, ← hxy, ← hcontent] at hstored
      exact Finset.mem_filter.mpr ⟨Finset.mem_univ e, hstored⟩
  calc quorum groupSize
      ≤ ∑ e, copies m.key ((s.nuzzleNode n).fanouts e) := hreceived
    _ ≤ ∑ e, if e ∈ s.holders m then 1 else 0 := Finset.sum_le_sum fun e _ => hone e
    _ = (s.holders m).card := by simp

omit [Fintype E] in
/-- Under one key no engine holds anything but what was published under it. -/
theorem stored_eq_of_delivered (h : Runs groupSize trace s)
    (hfew : (handledBy () trace).length ≤ 2 ^ 64) {n : N} {c : C} {m : RequestPublishProto}
    (hm : m ∈ (s.deliveries (n, c)).sent) {e : E} {content : Content}
    (hstored : s.stored e m.key = some content) : content = m.content := by
  obtain ⟨⟨⟩, x, hx, hkey, hcontent⟩ := h.genuine.deliveries n c m hm
  obtain ⟨r, hr, rfl⟩ := Option.map_eq_some_iff.mp hstored
  obtain ⟨⟨⟩, y, hy, hykey, rfl⟩ := h.genuine.buffers e m.key r hr
  rw [hcontent, eq_of_key_eq h hfew hx hy (hkey.symm.trans hykey)]
  rfl

/-- Reading the engines of a group under a key finds a content and no other. -/
def ReadsAs (s : State B Unit E N C) (group : Finset E) (key : Key) (content : Content) :
    Prop :=
  (∃ e ∈ group, s.stored e key = some content) ∧
    ∀ e ∈ group, ∀ content', s.stored e key = some content' → content' = content

/-- In a run of at most 2^64 publishes through one pump whose every prepare finds each
nuzzle listed at most once, every quorum of engines reads as what was delivered, to
whichever consumer and however long ago. -/
theorem delivered_readsAs (h : Runs groupSize trace s) (hcard : Fintype.card E = groupSize.toNat)
    (hpos : 0 < groupSize.toNat) (hfew : (handledBy () trace).length ≤ 2 ^ 64)
    (honce : ∀ x ∈ trace, ListsOnce x.1 x.2) (n : N) (c : C) (m : RequestPublishProto)
    (hm : m ∈ (s.deliveries (n, c)).sent) (group : Finset E)
    (hquorum : quorum groupSize ≤ group.card) : s.ReadsAs group m.key m.content := by
  refine ⟨?_, fun e _ content' hstored => stored_eq_of_delivered h hfew hm hstored⟩
  have hholders := quorum_le_holders h hpos hfew honce hm
  -- two quorums are more engines than there are
  have hmeet : (group ∩ s.holders m).Nonempty := by
    refine Finset.inter_nonempty_of_card_lt_card_add_card (Finset.subset_univ group)
      (Finset.subset_univ (s.holders m)) ?_
    rw [Finset.card_univ, hcard]
    unfold quorum at hquorum hholders
    omega
  obtain ⟨e, he⟩ := hmeet
  obtain ⟨hgroup, hholds⟩ := Finset.mem_inter.mp he
  exact ⟨e, hgroup, (Finset.mem_filter.mp hholds).2⟩

/-- One consumer is delivered a message that two engines of three have stored. -/
def storedByTwo (b : B) (e e' e'' : E) (n : N) (c : C) : List (Action B Unit E N C) :=
  [.pumpConnectToEngine () e, .pumpConnectToEngine () e', .pumpConnectToEngine () e'',
    .nuzzleConnectToEngine n e, .nuzzleConnectToEngine n e', .nuzzleConnectToEngine n e'',
    .connectToPump b (), .connectToNuzzle c n, .updateSubscribtion c (.on 7 1),
    .nuzzleOnUpdate c n (fun _ => default), .engineOnUpdate n e, .engineOnUpdate n e',
    .publish b 5 (.on 7 [1]), .pumpOnPublish b () default,
    .engineOnPrepare () e default default, .engineOnPrepare () e' default default,
    .nuzzleOnPublish e n, .nuzzleOnPublish e' n]

/-- There the first and the third engine read as the message. -/
theorem delivered_readsAs_storedByTwo :
    ∃ (trace : Trace (Fin 1) Unit (Fin 3) (Fin 1) (Fin 1))
      (s : State (Fin 1) Unit (Fin 3) (Fin 1) (Fin 1)) (m : RequestPublishProto),
        Runs 3 trace s ∧ m ∈ (s.deliveries (0, 0)).sent ∧ s.stored 2 m.key = none ∧
          s.ReadsAs {0, 2} m.key m.content := by
  obtain ⟨trace, s, hrun, hfew, honce, m, hm, hnone⟩ :=
    exists_run_of_execute (storedByTwo 0 0 1 2 0 0) next
      (start 3 : State (Fin 1) Unit (Fin 3) (Fin 1) (Fin 1))
      (fun trace s => (handledBy () trace).length ≤ 2 ^ 64 ∧
        (∀ x ∈ trace, ListsOnce x.1 x.2) ∧
        ∃ m ∈ (s.deliveries (0, 0)).sent, s.stored 2 m.key = none) (by decide +kernel)
  exact ⟨trace, s, m, hrun, hm, hnone,
    delivered_readsAs hrun (by decide) (by decide) hfew honce 0 0 m hm {0, 2} (by decide)⟩

end State

end Firehose.Cluster
