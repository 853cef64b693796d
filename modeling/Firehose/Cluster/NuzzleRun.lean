import Firehose.Cluster.Node
import Firehose.Foundation.Counting

set_option autoImplicit false

/-!
# What a nuzzle delivers

Over any run of a nuzzle the record it keeps for a key is as long as the number of
copies it has been handed, modulo the group size, so for each key the nuzzle is a cyclic
counter with the quorum as its threshold.
-/

namespace Firehose.Cluster

open Firehose.Api Firehose.Foundation Firehose.Node
open Function (update)
open Channel (addressedTo)

/-- Number of copies of a message in a history. -/
def copies (key : Key) (ms : List RequestPublishProto) : Nat :=
  ms.countP fun m => decide (m.key = key)

@[simp] theorem copies_nil (key : Key) : copies key [] = 0 := rfl

theorem copies_append (key : Key) (l₁ l₂ : List RequestPublishProto) :
    copies key (l₁ ++ l₂) = copies key l₁ + copies key l₂ := List.countP_append

theorem copies_replicate (key : Key) (n : Nat) (m : RequestPublishProto) :
    copies key (List.replicate n m) = if m.key = key then n else 0 := by
  simp [copies, List.countP_replicate]

theorem copies_pos {key : Key} {ms : List RequestPublishProto} :
    0 < copies key ms ↔ ∃ m ∈ ms, m.key = key := by
  simp [copies, List.countP_pos_iff]

theorem copies_le_of_isPrefix {key : Key} {l₁ l₂ : List RequestPublishProto}
    (h : l₁ <+: l₂) : copies key l₁ ≤ copies key l₂ := h.sublist.countP_le

namespace NuzzleNode

variable {E C : Type} [DecidableEq E] [DecidableEq C]

/-- Rounds of delivery a nuzzle has made for a key after a number of copies. -/
abbrev deliveryRounds (groupSize : UInt16) (n : Nat) : Nat :=
  rounds groupSize.toNat (quorum groupSize) n

/-- Connections and subscriptions hand the nuzzle no copy and deliver nothing. -/
theorem fanouts_deliveries_next {node node' : NuzzleNode E C} {event : NuzzleEvent E C}
    (h : Steps next node event node') (hev : ∀ e m, event ≠ .publish e m) :
    node'.fanouts = node.fanouts ∧ node'.deliveries = node.deliveries ∧
      node'.nuzzle.messageBuffer = node.nuzzle.messageBuffer ∧
      node'.nuzzle.groupSize = node.nuzzle.groupSize := by
  cases event with
  | connect e =>
      simp only [Steps, next] at h
      split at h
      · simp at h
      · simp only [Option.some.injEq] at h
        subst h
        exact ⟨rfl, rfl, rfl, rfl⟩
  | publish e m => exact absurd rfl (hev e m)
  | update c memory m =>
      simp only [Steps, next] at h
      split at h
      · simp at h
      · rename_i nuzzle out hup
        simp only [Option.some.injEq] at h
        subst h
        have hspec := Nuzzle.onUpdateSubscriptionReceive_eq_some hup
        exact ⟨rfl, rfl, hspec.2.2.1, hspec.1⟩

section Counting

variable [Fintype E]

/-- Number of copies of a message a nuzzle has been handed. -/
def received (node : NuzzleNode E C) (key : Key) : Nat := ∑ e, copies key (node.fanouts e)

/-- The record of each key is what the counter modulo the group size says, and every
entry of it is a copy its engine did send. -/
structure Counted (groupSize : UInt16) (node : NuzzleNode E C) : Prop where
  groupSize_eq : node.nuzzle.groupSize = groupSize
  length_eq : ∀ key, (node.nuzzle.messageBuffer.get key).length =
    node.received key % groupSize.toNat
  count_le : ∀ key e, (node.nuzzle.messageBuffer.get key).count e ≤
    copies key (node.fanouts e)

omit [DecidableEq C] in
theorem counted_start (groupSize : UInt16) :
    Counted groupSize (start groupSize : NuzzleNode E C) where
  groupSize_eq := rfl
  length_eq := by intro key; simp [start, Nuzzle.new, received]
  count_le := by intro key e; simp [start, Nuzzle.new]

omit [DecidableEq C] in
theorem Counted.bounded {groupSize : UInt16} {node : NuzzleNode E C}
    (h : Counted groupSize node) (hpos : 0 < groupSize.toNat) : node.nuzzle.Bounded := by
  intro key
  rw [h.length_eq, h.groupSize_eq]
  exact Nat.mod_lt _ hpos

theorem received_next_publish {node node' : NuzzleNode E C} {e : E}
    {m : RequestPublishProto} (h : Steps next node (.publish e m) node') (key : Key) :
    node'.received key = node.received key + if m.key = key then 1 else 0 := by
  simp only [Steps, next, Option.some.injEq] at h
  subst h
  have hsum := sum_countP_update_append (fun m => decide (m.key = key)) node.fanouts e m
  simpa [received, copies] using hsum

omit [DecidableEq C] in
/-- One copy more moves the record of its key on by one, and drops it when it is full. -/
theorem Counted.publish_length {groupSize : UInt16} (hpos : 0 < groupSize.toNat)
    {node : NuzzleNode E C} (hinv : Counted groupSize node) (e : E)
    (m : RequestPublishProto) (key : Key) :
    ((node.nuzzle.onPublishReceive e m.get).1.messageBuffer.get key).length =
      (node.received key + if m.key = key then 1 else 0) % groupSize.toNat := by
  have hlen := hinv.length_eq key
  rw [(hinv.bounded hpos).messageBuffer_get, hinv.groupSize_eq]
  by_cases hk : key = m.get.key
  · have hk' : m.key = key := hk.symm
    have hlt : node.received key % groupSize.toNat < groupSize.toNat := Nat.mod_lt _ hpos
    rw [if_pos hk, if_pos hk']
    by_cases hlast : (node.nuzzle.messageBuffer.get key).length + 1 = groupSize.toNat
    · rw [if_pos hlast, (succ_div_mod_of_full hpos (by omega)).2]
      rfl
    · rw [if_neg hlast, (succ_div_mod_of_lt (by omega)).2, List.length_append,
        List.length_singleton, hlen]
  · have hk' : ¬ m.key = key := fun h => hk h.symm
    rw [if_neg hk, if_neg hk', Nat.add_zero, hlen]

omit [DecidableEq C] in
/-- What is added to the record of a key is added to what its engine sent. -/
theorem Counted.publish_count {groupSize : UInt16} (hpos : 0 < groupSize.toNat)
    {node : NuzzleNode E C} (hinv : Counted groupSize node) (e : E)
    (m : RequestPublishProto) (key : Key) (e' : E) :
    ((node.nuzzle.onPublishReceive e m.get).1.messageBuffer.get key).count e' ≤
      copies key (update node.fanouts e (node.fanouts e ++ [m]) e') := by
  have hle := hinv.count_le key e'
  have hmono : copies key (node.fanouts e') ≤
      copies key (update node.fanouts e (node.fanouts e ++ [m]) e') := by
    by_cases he : e' = e
    · subst he; simp [copies_append]
    · simp [he]
  rw [(hinv.bounded hpos).messageBuffer_get]
  by_cases hk : key = m.get.key
  · rw [if_pos hk]
    split
    · simp
    · rw [List.count_append]
      by_cases he : e' = e
      · subst he
        have hone : copies key [m] = 1 := by
          simp [copies, show m.key = key from hk.symm]
        rw [Function.update_self, copies_append, hone]
        simp only [List.count_singleton_self]
        omega
      · rw [List.count_singleton, if_neg (by simpa using Ne.symm he)]
        omega
  · rw [if_neg hk]
    omega

theorem counted_next {groupSize : UInt16} (hpos : 0 < groupSize.toNat)
    {node node' : NuzzleNode E C} {event : NuzzleEvent E C} (hinv : Counted groupSize node)
    (h : Steps next node event node') : Counted groupSize node' := by
  cases event with
  | connect | update =>
      obtain ⟨hfan, -, hbuf, hsize⟩ := fanouts_deliveries_next h (by simp)
      refine ⟨hsize.trans hinv.groupSize_eq, fun key => ?_, fun key e => ?_⟩
      · simpa [received, hfan, hbuf] using hinv.length_eq key
      · simpa [hfan, hbuf] using hinv.count_le key e
  | publish e m =>
      have hreceived := received_next_publish h
      simp only [Steps, next, Option.some.injEq] at h
      subst h
      refine ⟨hinv.groupSize_eq, fun key => ?_, fun key e' => ?_⟩
      · rw [hreceived]
        exact hinv.publish_length hpos e m key
      · exact hinv.publish_count hpos e m key e'

theorem counted_run {groupSize : UInt16} (hpos : 0 < groupSize.toNat)
    {trace : List (NuzzleNode E C × NuzzleEvent E C)} {node : NuzzleNode E C}
    (h : Run (Steps next) (start groupSize) trace node) : Counted groupSize node :=
  h.keeps (counted_start groupSize)
    fun _ _ _ hinv hstep => counted_next hpos hinv hstep

/-- An invariant of a nuzzle may use in each step that the records are counted. -/
theorem Counted.invariant {groupSize : UInt16} (hpos : 0 < groupSize.toNat)
    {trace : List (NuzzleNode E C × NuzzleEvent E C)} {node₀ node : NuzzleNode E C}
    {D : NuzzleNode E C → NuzzleEvent E C → Prop} {I : NuzzleNode E C → Prop}
    (hcounted : Counted groupSize node₀) (h : Run (Steps next) node₀ trace node)
    (hD : ∀ x ∈ trace, D x.1 x.2) (hinit : I node₀)
    (hstep : ∀ node event node', Counted groupSize node → I node → D node event →
      Steps next node event node' → I node') : I node := by
  have hboth : Counted groupSize node ∧ I node :=
    h.invariant (I := fun node => Counted groupSize node ∧ I node) hD ⟨hcounted, hinit⟩
      fun node event node' hinv hd hone =>
        ⟨counted_next hpos hinv.1 hone, hstep node event node' hinv.1 hinv.2 hd hone⟩
  exact hboth.2

/-! ## Deliveries -/

/-- Handing a copy over delivers to a consumer as often as it is subscribed, in the round
that the copy completes. -/
theorem deliveries_next_publish {groupSize : UInt16} (hpos : 0 < groupSize.toNat)
    {node node' : NuzzleNode E C} (hinv : Counted groupSize node) {e : E}
    {m : RequestPublishProto} (h : Steps next node (.publish e m) node') (c : C) :
    node'.deliveries c = node.deliveries c ++
      List.replicate
        (if node.received m.key % groupSize.toNat + 1 = quorum groupSize then
          (node.nuzzle.subscriptions.get m.topicId).count c
        else 0) (Nuzzle.MsgPublishReqTx.set (Nuzzle.MsgPublishReqRx.get m)) := by
  have hdel := (hinv.bounded hpos).delivers_iff e m.get.key
  rw [hinv.length_eq, hinv.groupSize_eq] at hdel
  simp only [Steps, next, Option.some.injEq] at h
  subst h
  have hkey : m.key = m.get.key := rfl
  simp only [Nuzzle.onPublishReceive, hdel, hkey]
  split
  · rw [List.map_map]
    congr 1
    exact Channel.addressedTo_map c (node.nuzzle.subscriptions.get m.topicId) fun _ =>
      Nuzzle.MsgPublishReqTx.set (Nuzzle.MsgPublishReqRx.get m)
  · rfl

theorem copies_deliveries_next_publish {groupSize : UInt16} (hpos : 0 < groupSize.toNat)
    {node node' : NuzzleNode E C} (hinv : Counted groupSize node) {e : E}
    {m : RequestPublishProto} (h : Steps next node (.publish e m) node') (c : C)
    (key : Key) :
    copies key (node'.deliveries c) = copies key (node.deliveries c) +
      if m.key = key ∧ node.received key % groupSize.toNat + 1 = quorum groupSize then
        (node.nuzzle.subscriptions.get key.1).count c
      else 0 := by
  rw [deliveries_next_publish hpos hinv h, copies_append, copies_replicate,
    RequestPublish.key_set]
  congr 1
  by_cases hk : m.key = key
  · subst hk
    have htopic : m.topicId = m.key.1 := rfl
    simp only [show m.get.key = m.key from rfl, htopic, if_true, true_and]
  · simp [hk, show m.get.key = m.key from rfl]

/-- One copy more and at most one round more. -/
theorem deliveryRounds_next_publish {groupSize : UInt16} (hpos : 0 < groupSize.toNat)
    {node node' : NuzzleNode E C} {e : E} {m : RequestPublishProto}
    (h : Steps next node (.publish e m) node') (key : Key) :
    deliveryRounds groupSize (node'.received key) =
      deliveryRounds groupSize (node.received key) +
        if m.key = key ∧ node.received key % groupSize.toNat + 1 = quorum groupSize then 1
        else 0 := by
  rw [received_next_publish h]
  by_cases hk : m.key = key
  · simp only [hk, if_true, true_and]
    exact rounds_succ (quorum_pos groupSize) (quorum_le hpos) _
  · simp [hk]

/-- A consumer that is subscribed at most once is handed a message at most once in each
round. -/
theorem copies_le_rounds_run {groupSize : UInt16} (hpos : 0 < groupSize.toNat)
    {trace : List (NuzzleNode E C × NuzzleEvent E C)} {node : NuzzleNode E C}
    (h : Run (Steps next) (start groupSize) trace node) {c : C} {key : Key}
    (honce : ∀ x ∈ trace, (x.1.nuzzle.subscriptions.get key.1).count c ≤ 1) :
    copies key (node.deliveries c) ≤ deliveryRounds groupSize (node.received key) := by
  refine (counted_start groupSize).invariant hpos h
    (D := fun node _ => (node.nuzzle.subscriptions.get key.1).count c ≤ 1)
    (I := fun node =>
      copies key (node.deliveries c) ≤ deliveryRounds groupSize (node.received key))
    honce (Nat.zero_le _) ?_
  intro node event node' hcounted hle hone hstep
  cases event with
  | connect | update =>
      obtain ⟨hfan, hdel, -, -⟩ := fanouts_deliveries_next hstep (by simp)
      simpa [received, hfan, hdel] using hle
  | publish e m =>
      rw [copies_deliveries_next_publish hpos hcounted hstep,
        deliveryRounds_next_publish hpos hstep]
      split <;> omega

/-- While a consumer is subscribed it is handed a message in every round. -/
theorem rounds_le_copies_run {groupSize : UInt16} (hpos : 0 < groupSize.toNat)
    {trace : List (NuzzleNode E C × NuzzleEvent E C)} {node₀ node : NuzzleNode E C}
    (h : Run (Steps next) node₀ trace node) {c : C} {key : Key}
    (hcounted₀ : Counted groupSize node₀) (hnone : node₀.received key = 0)
    (hsubscribed : ∀ x ∈ trace, c ∈ x.1.nuzzle.subscriptions.get key.1) :
    deliveryRounds groupSize (node.received key) ≤ copies key (node.deliveries c) := by
  refine hcounted₀.invariant hpos h
    (D := fun node _ => c ∈ node.nuzzle.subscriptions.get key.1)
    (I := fun node =>
      deliveryRounds groupSize (node.received key) ≤ copies key (node.deliveries c))
    hsubscribed ?_ ?_
  · rw [hnone]
    exact (rounds_zero (quorum_pos groupSize)).trans_le (Nat.zero_le _)
  · intro node event node' hcounted hle hmem hstep
    cases event with
    | connect | update =>
        obtain ⟨hfan, hdel, -, -⟩ := fanouts_deliveries_next hstep (by simp)
        simpa [received, hfan, hdel] using hle
    | publish e m =>
        have hcount := List.count_pos_iff.mpr hmem
        rw [copies_deliveries_next_publish hpos hcounted hstep,
          deliveryRounds_next_publish hpos hstep]
        split <;> omega

end Counting

end NuzzleNode

end Firehose.Cluster
