import Firehose.Cluster.Subscriptions

set_option autoImplicit false

/-!
# The delivery law of a nuzzle

What a nuzzle has done for a key is a function of how many copies of it have arrived, and
what it keeps under the key are the connections of the latest ones.  To whom a round of
delivery goes is a function of the update requests on the topic alone, one count for each
consumer connection.  Other keys and other topics do not enter.
-/

namespace Firehose.Cluster

open Firehose.Api Firehose.Foundation Firehose.Node
open Channel (addressedTo)

namespace NuzzleNode

variable {E C : Type}

/-- The engine connection that a copy of the message arrives on. -/
def arrivedOn (key : Key) : NuzzleEvent E C → Option E
  | .publish e m => if m.key = key then some e else none
  | _ => none

/-- The connections the copies of a message have arrived on, in order. -/
def arrivals (key : Key) (trace : List (NuzzleNode E C × NuzzleEvent E C)) : List E :=
  trace.filterMap fun x => arrivedOn key x.2

/-- A step goes through the consumers of the message's topic. -/
def DeliversAt (key : Key) (node : NuzzleNode E C) : NuzzleEvent E C → Prop
  | .publish e m => m.key = key ∧ node.nuzzle.Delivers e key
  | _ => False

instance (key : Key) (node : NuzzleNode E C) (event : NuzzleEvent E C) :
    Decidable (DeliversAt key node event) :=
  match event with
  | .publish e m => inferInstanceAs (Decidable (m.key = key ∧ node.nuzzle.Delivers e key))
  | .connect _ => inferInstanceAs (Decidable False)
  | .update .. => inferInstanceAs (Decidable False)

/-- Number of rounds of delivery a message has been given. -/
def roundsOf (key : Key) (trace : List (NuzzleNode E C × NuzzleEvent E C)) : Nat :=
  trace.countP fun x => decide (DeliversAt key x.1 x.2)

/-- The update requests handled on one consumer connection. -/
def updatesFrom [DecidableEq C] (c : C) (trace : List (NuzzleNode E C × NuzzleEvent E C)) :
    List RequestUpdateSubscriptionProto :=
  trace.filterMap fun x =>
    x.2.updated.bind fun r => if r.1 = c then some r.2 else none

/-- What a nuzzle keeps under a key that has arrived on these connections. -/
def kept (groupSize : UInt16) (connections : List E) : Option (List E) :=
  if connections.length % groupSize.toNat = 0 then none
  else some (turn groupSize.toNat connections)

variable [DecidableEq C]

/-- A nuzzle as its history determines it. -/
structure Determined (groupSize : UInt16) (trace : List (NuzzleNode E C × NuzzleEvent E C))
    (node : NuzzleNode E C) : Prop where
  groupSize_eq : node.nuzzle.groupSize = groupSize
  buffer_eq : ∀ key, node.nuzzle.messageBuffer.find? key =
    kept groupSize (arrivals key trace)
  rounds_eq : ∀ key, roundsOf key trace =
    deliveryRounds groupSize (arrivals key trace).length
  entries_eq : ∀ topic c, ((node.nuzzle.subscriptions.get topic).count c : Int) =
    balance topic (updatesFrom c trace)

theorem determined_start (groupSize : UInt16) :
    Determined groupSize [] (start groupSize : NuzzleNode E C) where
  groupSize_eq := rfl
  buffer_eq := by intro key; simp [start, Nuzzle.new, arrivals, kept]
  rounds_eq := by
    intro key
    exact (rounds_zero (quorum_pos groupSize)).symm
  entries_eq := by intro topic c; simp [start, Nuzzle.new, updatesFrom]

theorem Determined.buffer_get {groupSize : UInt16}
    {trace : List (NuzzleNode E C × NuzzleEvent E C)} {node : NuzzleNode E C}
    (h : Determined groupSize trace node) (key : Key) :
    node.nuzzle.messageBuffer.get key = turn groupSize.toNat (arrivals key trace) := by
  rw [Map.get, h.buffer_eq, kept]
  split
  · rename_i hzero
    rw [← length_turn] at hzero
    exact (List.length_eq_zero_iff.mp hzero).symm
  · rfl

theorem Determined.bounded {groupSize : UInt16} (hpos : 0 < groupSize.toNat)
    {trace : List (NuzzleNode E C × NuzzleEvent E C)} {node : NuzzleNode E C}
    (h : Determined groupSize trace node) : node.nuzzle.Bounded := by
  intro key
  rw [h.buffer_get, length_turn, h.groupSize_eq]
  exact Nat.mod_lt _ hpos

/-- The copy that is handed over starts a round when it makes the quorum of its turn. -/
theorem Determined.delivers_iff {groupSize : UInt16} (hpos : 0 < groupSize.toNat)
    {trace : List (NuzzleNode E C × NuzzleEvent E C)} {node : NuzzleNode E C}
    (h : Determined groupSize trace node) (e : E) (key : Key) :
    node.nuzzle.Delivers e key ↔
      (arrivals key trace).length % groupSize.toNat + 1 = quorum groupSize := by
  rw [(h.bounded hpos).delivers_iff, h.buffer_get, length_turn, h.groupSize_eq]

section Histories

variable (trace : List (NuzzleNode E C × NuzzleEvent E C)) (node : NuzzleNode E C)

omit [DecidableEq C] in
theorem arrivals_publish (key : Key) (e : E) (m : RequestPublishProto) :
    arrivals key (trace ++ [(node, .publish e m)]) =
      if m.key = key then arrivals key trace ++ [e] else arrivals key trace := by
  by_cases hk : m.key = key <;> simp [arrivals, arrivedOn, hk]

omit [DecidableEq C] in
theorem roundsOf_snoc (key : Key) (event : NuzzleEvent E C) :
    roundsOf key (trace ++ [(node, event)]) =
      roundsOf key trace + if DeliversAt key node event then 1 else 0 := by
  simp [roundsOf, List.countP_append, List.countP_singleton]

omit [DecidableEq C] in
/-- Connections and updates are neither arrivals nor rounds. -/
theorem arrivals_roundsOf_other (key : Key) {event : NuzzleEvent E C}
    (hev : ∀ e m, event ≠ .publish e m) :
    arrivals key (trace ++ [(node, event)]) = arrivals key trace ∧
      roundsOf key (trace ++ [(node, event)]) = roundsOf key trace := by
  cases event with
  | publish e m => exact absurd rfl (hev e m)
  | connect | update =>
      refine ⟨by simp [arrivals, arrivedOn], ?_⟩
      rw [roundsOf_snoc, if_neg (by simp [DeliversAt]), Nat.add_zero]

theorem updatesFrom_other (c : C) {event : NuzzleEvent E C} (hev : event.updated = none) :
    updatesFrom c (trace ++ [(node, event)]) = updatesFrom c trace := by
  simp [updatesFrom, hev]

theorem updatesFrom_update (c c' : C) (memory : E → RequestUpdateSubscription)
    (m : RequestUpdateSubscriptionProto) :
    updatesFrom c (trace ++ [(node, .update c' memory m)]) =
      if c' = c then updatesFrom c trace ++ [m] else updatesFrom c trace := by
  by_cases hc : c' = c <;> simp [updatesFrom, NuzzleEvent.updated, hc]

end Histories

/-! ## One step -/

variable [DecidableEq E]

theorem determined_publish {groupSize : UInt16} (hpos : 0 < groupSize.toNat)
    {trace : List (NuzzleNode E C × NuzzleEvent E C)} {node node' : NuzzleNode E C}
    (hinv : Determined groupSize trace node) {e : E} {m : RequestPublishProto}
    (h : Steps next node (.publish e m) node') :
    Determined groupSize (trace ++ [(node, .publish e m)]) node' := by
  have hdelivers := hinv.delivers_iff hpos e m.key
  have hfind := (hinv.bounded hpos).messageBuffer_find? e m.get
  have hkey : m.get.key = m.key := rfl
  simp only [Steps, next, Option.some.injEq] at h
  subst h
  refine ⟨hinv.groupSize_eq, fun key => ?_, fun key => ?_, fun topic c => ?_⟩
  · rw [arrivals_publish, hfind, hkey, hinv.groupSize_eq, hinv.buffer_get, length_turn]
    by_cases hk : m.key = key
    · subst hk
      rw [if_pos rfl, if_pos rfl, kept, turn_snoc hpos, List.length_append,
        List.length_singleton]
      by_cases hfull : (arrivals m.key trace).length % groupSize.toNat + 1 = groupSize.toNat
      · rw [if_pos hfull, if_pos (succ_div_mod_of_full hpos hfull).2]
      · have hlt := Nat.mod_lt (arrivals m.key trace).length hpos
        have hmod := (succ_div_mod_of_lt
          (show (arrivals m.key trace).length % groupSize.toNat + 1 < groupSize.toNat by
            omega)).2
        rw [if_neg hfull, if_neg (by omega), if_neg hfull]
    · rw [if_neg hk, if_neg (fun heq => hk heq.symm), hinv.buffer_eq]
  · rw [roundsOf_snoc, arrivals_publish, hinv.rounds_eq]
    by_cases hk : m.key = key
    · subst hk
      have hsucc := rounds_succ (quorum_pos groupSize) (quorum_le hpos)
        (arrivals m.key trace).length
      rw [if_pos rfl, List.length_append, List.length_singleton]
      simpa only [DeliversAt, hdelivers, true_and] using hsucc.symm
    · simp [DeliversAt, hk]
  · rw [updatesFrom_other _ _ _ rfl]
    simpa using hinv.entries_eq topic c

/-- An update moves one count, by its weight. -/
theorem count_next_update {node node' : NuzzleNode E C} {c : C}
    {memory : E → RequestUpdateSubscription} {m : RequestUpdateSubscriptionProto}
    (h : Steps next node (.update c memory m) node') (topic : UInt64) (c' : C) :
    ((node'.nuzzle.subscriptions.get topic).count c' : Int) =
      (node.nuzzle.subscriptions.get topic).count c' + if c = c' then weight topic m else 0 := by
  obtain ⟨-, -, hother, hown⟩ := updates_next_update h
  have htopic : m.get.topicId = m.topicId := rfl
  unfold weight
  by_cases ht : m.topicId = topic
  · subst ht
    rw [htopic, if_pos rfl]
    by_cases hs : m.get.isSubscribe = true
    · simp only [hs, if_true] at hown ⊢
      rw [hown, List.count_append]
      by_cases hc : c = c'
      · subst hc; simp
      · simp [hc]
    · simp only [hs, Bool.false_eq_true, if_false] at hown ⊢
      rw [hown.2]
      by_cases hc : c = c'
      · subst hc
        have hcount := List.count_pos_iff.mpr hown.1
        rw [List.count_erase_self, if_pos rfl]
        omega
      · rw [List.count_erase_of_ne (Ne.symm hc), if_neg hc, Int.add_zero]
  · simp [hother topic (Ne.symm ht), htopic, ht]

theorem determined_next {groupSize : UInt16} (hpos : 0 < groupSize.toNat)
    {trace : List (NuzzleNode E C × NuzzleEvent E C)} {node node' : NuzzleNode E C}
    {event : NuzzleEvent E C} (hinv : Determined groupSize trace node)
    (h : Steps next node event node') :
    Determined groupSize (trace ++ [(node, event)]) node' := by
  cases event with
  | connect e =>
      obtain ⟨-, rfl⟩ := connect_next h
      have hquiet : ∀ e' m, (NuzzleEvent.connect e : NuzzleEvent E C) ≠ .publish e' m := by simp
      have hother := fun key => arrivals_roundsOf_other trace node key hquiet
      refine ⟨hinv.groupSize_eq, fun key => ?_, fun key => ?_, fun topic c => ?_⟩
      · rw [(hother key).1]
        exact hinv.buffer_eq key
      · rw [(hother key).1, (hother key).2]
        exact hinv.rounds_eq key
      · rw [updatesFrom_other _ _ _ rfl]
        exact hinv.entries_eq topic c
  | publish e m => exact determined_publish hpos hinv h
  | update c memory m =>
      obtain ⟨-, -, hbuf, hsize⟩ := fanouts_deliveries_next h (by simp)
      have hquiet : ∀ e m', (NuzzleEvent.update c memory m : NuzzleEvent E C) ≠ .publish e m' := by
        simp
      have hother := fun key => arrivals_roundsOf_other trace node key hquiet
      refine ⟨hsize.trans hinv.groupSize_eq, fun key => ?_, fun key => ?_, fun topic c' => ?_⟩
      · rw [(hother key).1, hbuf]
        exact hinv.buffer_eq key
      · rw [(hother key).1, (hother key).2]
        exact hinv.rounds_eq key
      · rw [count_next_update h, hinv.entries_eq, updatesFrom_update]
        by_cases hc : c = c'
        · simp [hc, balance_snoc]
        · simp [hc]

theorem determined_run {groupSize : UInt16} (hpos : 0 < groupSize.toNat)
    {trace : List (NuzzleNode E C × NuzzleEvent E C)} {node : NuzzleNode E C}
    (h : Run (Steps next) (start groupSize) trace node) : Determined groupSize trace node :=
  h.history_keeps (I := Determined groupSize) (determined_start groupSize)
    fun _ _ _ _ hinv hstep => determined_next hpos hinv hstep

/-! ## The law -/

/-- What a nuzzle has delivered, what it keeps, and to whom each round goes. -/
structure DeliveryLaw (groupSize : UInt16) (trace : List (NuzzleNode E C × NuzzleEvent E C))
    (node : NuzzleNode E C) : Prop where
  /-- One round for each full turn of arrivals, and one for a turn past the quorum. -/
  rounds_eq : ∀ key, roundsOf key trace =
    (arrivals key trace).length / groupSize.toNat +
      if 1 + groupSize.toNat / 2 ≤ (arrivals key trace).length % groupSize.toNat then 1 else 0
  /-- A key is kept while its turn is not complete. -/
  kept_iff : ∀ key, (∃ record, node.nuzzle.messageBuffer.find? key = some record) ↔
    (arrivals key trace).length % groupSize.toNat ≠ 0
  /-- What is kept are the connections of the arrivals of that turn. -/
  kept_eq : ∀ key record, node.nuzzle.messageBuffer.find? key = some record →
    record = (arrivals key trace).drop
      ((arrivals key trace).length - (arrivals key trace).length % groupSize.toNat)
  /-- No connection has unsubscribed more often than it has subscribed. -/
  matched : ∀ topic c, unsubscribes topic (updatesFrom c trace) ≤
    subscribes topic (updatesFrom c trace)
  /-- A round sends the copy that completes it to each connection as often as the
  connection is subscribed, and a copy that completes none is sent to nobody. -/
  sends : ∀ t₁ t₂ before e m, trace = t₁ ++ (before, .publish e m) :: t₂ → ∀ c,
    addressedTo c (before.nuzzle.onPublishReceive e (Nuzzle.MsgPublishReqRx.get m)).2 =
      if DeliversAt m.key before (.publish e m) then
        List.replicate (subscribes m.topicId (updatesFrom c t₁) -
          unsubscribes m.topicId (updatesFrom c t₁)) (Nuzzle.MsgPublishReqRx.get m)
      else []

omit [DecidableEq E] in
theorem Determined.matched {groupSize : UInt16}
    {trace : List (NuzzleNode E C × NuzzleEvent E C)} {node : NuzzleNode E C}
    (h : Determined groupSize trace node) (topic : UInt64) (c : C) :
    (node.nuzzle.subscriptions.get topic).count c + unsubscribes topic (updatesFrom c trace) =
      subscribes topic (updatesFrom c trace) := by
  have heq := h.entries_eq topic c
  unfold balance at heq
  omega

omit [DecidableEq E] in
/-- What a nuzzle that its history determines sends for one copy. -/
theorem Determined.sends {groupSize : UInt16}
    {trace : List (NuzzleNode E C × NuzzleEvent E C)} {node : NuzzleNode E C}
    (h : Determined groupSize trace node) (e : E) (m : RequestPublishProto) (c : C) :
    addressedTo c (node.nuzzle.onPublishReceive e (Nuzzle.MsgPublishReqRx.get m)).2 =
      if DeliversAt m.key node (.publish e m) then
        List.replicate (subscribes m.topicId (updatesFrom c trace) -
          unsubscribes m.topicId (updatesFrom c trace)) (Nuzzle.MsgPublishReqRx.get m)
      else [] := by
  have hcount := h.matched m.topicId c
  have htimes : subscribes m.topicId (updatesFrom c trace) -
      unsubscribes m.topicId (updatesFrom c trace) =
        (node.nuzzle.subscriptions.get m.topicId).count c := by omega
  have hround : DeliversAt m.key node (.publish e m) ↔ node.nuzzle.Delivers e m.get.key := by
    simp [DeliversAt, show m.get.key = m.key from rfl]
  rw [htimes]
  simp only [Nuzzle.onPublishReceive, hround]
  split
  · exact Channel.addressedTo_map c (node.nuzzle.subscriptions.get m.topicId) fun _ =>
      Nuzzle.MsgPublishReqRx.get m
  · rfl

/-- Every run of a nuzzle obeys the law. -/
theorem deliveryLaw {groupSize : UInt16} (hpos : 0 < groupSize.toNat)
    {trace : List (NuzzleNode E C × NuzzleEvent E C)} {node : NuzzleNode E C}
    (h : Run (Steps next) (start groupSize) trace node) : DeliveryLaw groupSize trace node := by
  have hdet := determined_run hpos h
  refine ⟨hdet.rounds_eq, fun key => ?_, fun key record hrec => ?_, fun topic c => ?_, ?_⟩
  · rw [hdet.buffer_eq, kept]
    split
    · rename_i hzero
      simp [hzero]
    · rename_i hne
      simp [hne]
  · rw [hdet.buffer_eq, kept] at hrec
    split at hrec
    · simp at hrec
    · exact (Option.some.inj hrec).symm
  · have hmatched := hdet.matched topic c
    omega
  · rintro t₁ t₂ node₁ e m rfl c
    exact (determined_run hpos h.before).sends e m c

/-- What has arrived is what the engines' histories hold. -/
theorem length_arrivals [Fintype E] {groupSize : UInt16}
    {trace : List (NuzzleNode E C × NuzzleEvent E C)} {node : NuzzleNode E C}
    (h : Run (Steps next) (start groupSize) trace node) (key : Key) :
    (arrivals key trace).length = node.received key := by
  induction h with
  | refl => simp [arrivals, start, received]
  | @snoc trace node node' event hrun hstep ih =>
      cases event with
      | connect | update =>
          obtain ⟨hfan, -, -, -⟩ := fanouts_deliveries_next hstep (by simp)
          rw [(arrivals_roundsOf_other trace node key (by simp)).1, ih]
          simp [received, hfan]
      | publish e m =>
          rw [arrivals_publish, received_next_publish hstep, ← ih]
          split <;> simp

/-- A nuzzle keeps nothing exactly when every message has arrived a whole number of
turns. -/
theorem messageBuffer_empty_iff [Fintype E] {groupSize : UInt16} (hpos : 0 < groupSize.toNat)
    {trace : List (NuzzleNode E C × NuzzleEvent E C)} {node : NuzzleNode E C}
    (h : Run (Steps next) (start groupSize) trace node) :
    (∀ key, node.nuzzle.messageBuffer.find? key = none) ↔
      ∀ key, groupSize.toNat ∣ node.received key := by
  refine forall_congr' fun key => ?_
  rw [(determined_run hpos h).buffer_eq, kept, length_arrivals h, Nat.dvd_iff_mod_eq_zero]
  split
  · rename_i hzero
    simp [hzero]
  · rename_i hne
    simp [hne]

/-- One consumer subscribes, and two copies of a message arrive from one engine. -/
def twoCopies (e : E) (c : C) : List (NuzzleEvent E C) :=
  [.update c (fun _ => default) (RequestUpdateSubscription.on 7 1).setWithTelemetry,
    .publish e (RequestPublish.on 7 [1]).set, .publish e (RequestPublish.on 7 [1]).set]

/-- With a group of three the second copy starts the round, and both stay on record. -/
theorem deliveryLaw_twoCopies :
    ∃ (trace : List (NuzzleNode (Fin 1) (Fin 1) × NuzzleEvent (Fin 1) (Fin 1)))
      (node : NuzzleNode (Fin 1) (Fin 1)),
      Run (Steps next) (start 3) trace node ∧
        (roundsOf (7, 0) trace = 1 ∧ (node.nuzzle.messageBuffer.get (7, 0)).length = 2) ∧
        DeliveryLaw 3 trace node := by
  obtain ⟨trace, node, hrun, hcheck⟩ :=
    exists_run_of_execute (twoCopies 0 0) next
      (start 3 : NuzzleNode (Fin 1) (Fin 1))
      (fun trace node => roundsOf (7, 0) trace = 1 ∧
        (node.nuzzle.messageBuffer.get (7, 0)).length = 2) (by decide +kernel)
  exact ⟨trace, node, hrun, hcheck, deliveryLaw (by decide) hrun⟩

end NuzzleNode

end Firehose.Cluster
