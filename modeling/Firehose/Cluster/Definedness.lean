import Firehose.Cluster.Joining
import Firehose.Cluster.DeliveryLaw

set_option autoImplicit false

/-!
# No handler is undefined on what it is handed

The update handlers erase what `std::find` returns without a look.  In the whole system
that is sound as long as no consumer takes back a subscription it does not have, a nuzzle
forwards under one client identifier, and it connects to its engines while nobody is
subscribed: every unsubscribe under way, at whatever stage, has a subscribe before it.
-/

namespace Firehose.Cluster

open Firehose.Api Firehose.Foundation Firehose.Node
open Function (update)
open Channel (addressedTo)

/-- Whether a step is a call of a handler: whoever takes it answers a message. -/
def Action.isHandler {B P E N C : Type} : Action B P E N C → Bool
  | .pumpOnPublish .. | .pumpOnPrepareAck .. | .engineOnPrepare .. | .engineOnUpdate ..
  | .nuzzleOnPublish .. | .nuzzleOnUpdate .. | .consumerOnPublish .. => true
  | _ => false

/-- The nuzzle that connects to an engine. -/
def Action.connecting {B P E N C : Type} : Action B P E N C → Option N
  | .nuzzleConnectToEngine n _ => some n
  | _ => none

/-- Each unsubscribe in a history finds a subscribe that has not been taken back. -/
def Solvent (ms : List RequestUpdateSubscriptionProto) : Prop :=
  ∀ i, (hi : i < ms.length) → ms[i].get.isSubscribe = false →
    0 < balance ms[i].topicId (ms.take i)

instance (ms : List RequestUpdateSubscriptionProto) : Decidable (Solvent ms) :=
  inferInstanceAs (Decidable (∀ i, (hi : i < ms.length) → ms[i].get.isSubscribe = false →
    0 < balance ms[i].topicId (ms.take i)))

theorem Solvent.head {ms rest : List RequestUpdateSubscriptionProto}
    {m : RequestUpdateSubscriptionProto} (h : Solvent (ms ++ m :: rest))
    (hsub : m.get.isSubscribe = false) : 0 < balance m.topicId ms := by
  have hat := h ms.length (by simp)
  simpa using hat (by simpa using hsub)

/-- The client under which a nuzzle's requests are booked at the engines. -/
def clientOf (senderId : Int32) : UInt64 := senderId.toInt64.toUInt64

/-! ## What a nuzzle forwards -/

namespace NuzzleNode

variable {E C : Type} [DecidableEq E] [DecidableEq C]
variable {node node' : NuzzleNode E C} {event : NuzzleEvent E C}

/-- The nuzzle and its engines agree, and no beginning of what an engine has been sent
takes back more than it asks for. -/
structure Backed (node : NuzzleNode E C) : Prop where
  wired : Wired node
  agrees : Agrees node
  nonneg : ∀ topic e k, 0 ≤ balance topic ((node.updates e).take k)

omit [DecidableEq E] [DecidableEq C] in
theorem backed_start (groupSize : UInt16) : Backed (start groupSize : NuzzleNode E C) where
  wired := wired_start groupSize
  agrees := fun topic e he => by simp [start, Nuzzle.new] at he
  nonneg := fun topic e k => by simp [start]

theorem backed_next (hinv : Backed node) (hidle : ∀ topic, ConnectsIdle topic node event)
    (h : Steps next node event node') : Backed node' := by
  have hagrees : Agrees node' := fun topic =>
    (agreesOn_next_iff hinv.wired (hinv.agrees topic) h).mpr (hidle topic)
  refine ⟨wired_next hinv.wired h, hagrees, fun topic e k => ?_⟩
  cases event with
  | connect e' =>
      obtain ⟨-, rfl⟩ := connect_next h
      exact hinv.nonneg topic e k
  | publish e' m =>
      rw [(updates_next_publish h).2.1]
      exact hinv.nonneg topic e k
  | update c memory m =>
      obtain ⟨hconns, hsent, -, -⟩ := updates_next_update h
      by_cases he : e ∈ node.nuzzle.engineConnections
      · obtain ⟨sent, -, hupd⟩ := hsent e
        rw [List.count_eq_one_of_mem hinv.wired.nodup he, List.replicate_one] at hupd
        by_cases hold : k ≤ (node.updates e).length
        · rw [hupd, List.take_append_of_le_length hold]
          exact hinv.nonneg topic e k
        · -- the whole of what has been sent, which balances to the entries there are
          have hall : (node'.updates e).length ≤ k := by
            rw [hupd, List.length_append, List.length_singleton]
            omega
          rw [List.take_of_length_le hall, hagrees topic e (hconns ▸ he)]
          exact Int.natCast_nonneg _
      · have hnone := (wired_next hinv.wired h).unconnected e (hconns ▸ he)
        simp [hnone]

/-- Every request a nuzzle sends carries the client identifier that was in memory. -/
theorem clientId_next_update {c : C} {memory : E → RequestUpdateSubscription}
    {m : RequestUpdateSubscriptionProto} (h : Steps next node (.update c memory m) node')
    {e : E} {sent : RequestUpdateSubscriptionProto} (hsent : sent ∈ node'.updates e) :
    sent ∈ node.updates e ∨
      Engine.clientId sent.get = clientOf (memory e).header.senderId := by
  simp only [Steps, next] at h
  split at h
  · simp at h
  · rename_i nuzzle out hup
    obtain ⟨-, -, -, hout, -, -⟩ := Nuzzle.onUpdateSubscriptionReceive_eq_some hup
    rw [← Option.some.inj h] at hsent
    rcases List.mem_append.mp hsent with hold | hnew
    · exact Or.inl hold
    · rw [Channel.mem_addressedTo, List.mem_map] at hnew
      obtain ⟨o, ho, heq⟩ := hnew
      rw [hout] at ho
      obtain ⟨e', -, rfl⟩ := List.mem_map.mp ho
      obtain ⟨rfl, rfl⟩ := Prod.mk.inj heq
      exact Or.inr rfl

end NuzzleNode

/-! ## What an engine books -/

namespace EngineNode

variable {P N : Type} [DecidableEq P] [DecidableEq N]

/-- A client that is booked was there before or is the one of the update handled. -/
theorem mem_clients_next {node node' : EngineNode P N} {event : EngineEvent P N}
    (hcov : node.engine.Covered) (h : Steps next node event node') {topic : UInt64} {n : N}
    {client : UInt64} (hmem : client ∈ node'.engine.clients topic n) :
    client ∈ node.engine.clients topic n ∨
      ∃ m, event = .update n m ∧ client = Engine.clientId m.get := by
  cases event with
  | prepare p ackMemory publishMemory m =>
      rw [← Option.some.inj h] at hmem
      exact Or.inl hmem
  | accept p request =>
      rw [← Option.some.inj h] at hmem
      exact Or.inl hmem
  | update n' m =>
      obtain ⟨engine, hup, rfl⟩ := update_next h
      rcases Engine.onUpdateSubscriptionReceive_cases hup with ⟨-, rfl⟩ | ⟨-, hun⟩
      · rw [Engine.subscribe_clients hcov] at hmem
        split at hmem
        · rename_i hboth
          rcases List.mem_append.mp hmem with hold | hnew
          · exact Or.inl hold
          · rw [hboth.2]
            exact Or.inr ⟨m, rfl, List.mem_singleton.mp hnew⟩
        · exact Or.inl hmem
      · obtain ⟨-, -, hclients, -⟩ := Engine.unsubscribe_eq_some hun
        rw [hclients] at hmem
        split at hmem
        · exact Or.inl (List.mem_of_mem_erase hmem)
        · exact Or.inl hmem

end EngineNode

/-! ## The system -/

namespace State

variable {B P E N C : Type}
variable [DecidableEq B] [DecidableEq P] [DecidableEq E] [DecidableEq N] [DecidableEq C]
variable {s s' : State B P E N C} {a : Action B P E N C} {id : N → Int32}

omit [DecidableEq B] [DecidableEq P] [DecidableEq E] [DecidableEq C] in
/-- A nuzzle sees an update when its handler is called, and a new engine when it connects
to one. -/
theorem of_nuzzleEvent {n : N} {event : NuzzleEvent E C} (h : nuzzleEvent n s a = some event) :
    (∀ c memory m, event = .update c memory m → a = .nuzzleOnUpdate c n memory) ∧
      ∀ e, event = .connect e → a = .nuzzleConnectToEngine n e := by
  cases a with
  | nuzzleConnectToEngine n' e =>
      simp only [nuzzleEvent] at h
      split at h
      · rename_i hn
        obtain rfl := Option.some.inj h
        exact ⟨by simp, fun e' he => by rw [hn, (NuzzleEvent.connect.inj he)]⟩
      · simp at h
  | nuzzleOnPublish e n' =>
      simp only [nuzzleEvent] at h
      split at h
      · obtain ⟨m, -, rfl⟩ := Option.map_eq_some_iff.mp h
        exact ⟨by simp, by simp⟩
      · simp at h
  | nuzzleOnUpdate c n' memory =>
      simp only [nuzzleEvent] at h
      split at h
      · rename_i hn
        obtain ⟨m, -, rfl⟩ := Option.map_eq_some_iff.mp h
        refine ⟨fun c' memory' m' heq => ?_, by simp⟩
        obtain ⟨rfl, rfl, -⟩ := NuzzleEvent.update.inj heq
        rw [hn]
      · simp at h
  | _ => simp [nuzzleEvent] at h

omit [DecidableEq B] [DecidableEq P] [DecidableEq N] [DecidableEq C] in
/-- An engine sees an update when its handler is called on the front of the channel. -/
theorem of_engineEvent {e : E} {n : N} {m : RequestUpdateSubscriptionProto}
    (h : engineEvent e s a = some (.update n m)) : m ∈ (s.updates (n, e)).sent := by
  cases a with
  | engineOnPrepare p e' ackMemory publishMemory =>
      simp only [engineEvent] at h
      split at h
      · obtain ⟨m', -, heq⟩ := Option.map_eq_some_iff.mp h
        simp at heq
      · simp at h
  | engineOnUpdate n' e' =>
      simp only [engineEvent] at h
      split at h
      · obtain ⟨m', hm, heq⟩ := Option.map_eq_some_iff.mp h
        obtain ⟨rfl, rfl⟩ := EngineEvent.update.inj heq
        exact List.mem_append_right _ (List.mem_of_mem_head? hm)
      · simp at h
  | _ => simp [engineEvent] at h

/-- Only the handler of an update moves the subscriptions of a nuzzle or takes a request. -/
theorem subscriptions_next_of_ne (ha : ∀ c n memory, a ≠ .nuzzleOnUpdate c n memory)
    (h : next s a = some s') :
    (∀ n topic, (s'.nuzzle n).subscriptions.get topic =
      (s.nuzzle n).subscriptions.get topic) ∧
    ∀ link, (s'.requests link).received = (s.requests link).received := by
  cases a with
  | connectToPump =>
      obtain rfl := connectToPump_next h
      exact ⟨fun _ _ => rfl, fun _ => rfl⟩
  | pumpConnectToEngine =>
      obtain ⟨-, rfl⟩ := pumpConnectToEngine_next h
      exact ⟨fun _ _ => rfl, fun _ => rfl⟩
  | nuzzleConnectToEngine n e =>
      obtain ⟨-, rfl⟩ := nuzzleConnectToEngine_next h
      refine ⟨fun n' topic => ?_, fun _ => rfl⟩
      by_cases hn : n' = n
      · subst hn
        simp [Nuzzle.connectToEngine]
      · simp [hn]
  | connectToNuzzle =>
      obtain rfl := connectToNuzzle_next h
      exact ⟨fun _ _ => rfl, fun _ => rfl⟩
  | publish =>
      obtain ⟨_, _, _, -, rfl⟩ := publish_next h
      exact ⟨fun _ _ => rfl, fun _ => rfl⟩
  | updateSubscribtion =>
      obtain ⟨_, _, -, rfl⟩ := updateSubscribtion_next h
      exact ⟨fun _ _ => rfl, fun _ => by simp⟩
  | pumpOnPublish =>
      obtain ⟨_, _, _, -, -, rfl⟩ := pumpOnPublish_next h
      exact ⟨fun _ _ => rfl, fun _ => rfl⟩
  | pumpOnPrepareAck =>
      obtain ⟨_, _, -, rfl⟩ := pumpOnPrepareAck_next h
      exact ⟨fun _ _ => rfl, fun _ => rfl⟩
  | engineOnPrepare =>
      obtain ⟨_, _, _, -, -, rfl⟩ := engineOnPrepare_next h
      exact ⟨fun _ _ => rfl, fun _ => rfl⟩
  | engineOnUpdate =>
      obtain ⟨_, _, _, -, -, rfl⟩ := engineOnUpdate_next h
      exact ⟨fun _ _ => rfl, fun _ => rfl⟩
  | nuzzleOnPublish e n =>
      obtain ⟨m, ch, r, -, rfl, rfl⟩ := nuzzleOnPublish_next h
      refine ⟨fun n' topic => ?_, fun _ => rfl⟩
      by_cases hn : n' = n
      · subst hn
        simp
      · simp [hn]
  | nuzzleOnUpdate c n memory => exact absurd rfl (ha c n memory)
  | consumerOnPublish =>
      obtain ⟨_, _, -, rfl⟩ := consumerOnPublish_next h
      exact ⟨fun _ _ => rfl, fun _ => rfl⟩

/-- A nuzzle lists a consumer as often as the requests it has handled from it balance to. -/
def Booked (s : State B P E N C) : Prop :=
  ∀ n c topic, (((s.nuzzle n).subscriptions.get topic).count c : Int) =
    balance topic (s.requests (c, n)).received

omit [DecidableEq B] [DecidableEq P] [DecidableEq E] [DecidableEq N] in
theorem booked_start (groupSize : UInt16) : Booked (start groupSize : State B P E N C) := by
  intro n c topic
  simp [start, Nuzzle.new]

theorem booked_next (hinv : Booked s) (h : next s a = some s') : Booked s' := by
  by_cases ha : ∀ c n memory, a ≠ .nuzzleOnUpdate c n memory
  · obtain ⟨hsubs, hreceived⟩ := subscriptions_next_of_ne ha h
    intro n c topic
    rw [hsubs, hreceived]
    exact hinv n c topic
  · push Not at ha
    obtain ⟨c, n, memory, rfl⟩ := ha
    have hsim := nuzzleNode_simulates n s _ s' h
    obtain ⟨m, ch, nuzzle, out, hpop, hup, rfl⟩ := nuzzleOnUpdate_next h
    have hnode := hsim.step_of_event (b := .update c memory m)
      (by simp [nuzzleEvent, Channel.head?_of_pop? hpop])
    intro n' c' topic
    have hold := hinv n' c' topic
    by_cases hn : n' = n
    · subst hn
      have hcount := NuzzleNode.count_next_update hnode topic c'
      simp only [nuzzleNode] at hcount
      rw [hcount, hold]
      by_cases hc : c = c'
      · subst hc
        rw [if_pos rfl, Channel.received_update_self hpop, balance_snoc]
      · rw [if_neg hc, Channel.received_update_ne _ _ (by simp [Ne.symm hc]), Int.add_zero]
    · rw [Channel.received_update_ne _ _ (by simp [hn]), ← hold]
      simp [hn]

/-- No step connects a nuzzle to an engine while somebody is subscribed at it. -/
def ConnectsUnsubscribed (s : State B P E N C) (a : Action B P E N C) : Prop :=
  ∀ n ∈ a.connecting, ∀ topic, (s.nuzzle n).subscriptions.get topic = []

omit [DecidableEq B] [DecidableEq P] [DecidableEq C] [DecidableEq E] in
theorem ConnectsUnsubscribed.idle (h : ConnectsUnsubscribed s a) {n : N}
    {event : NuzzleEvent E C} (hev : nuzzleEvent n s a = some event) (topic : UInt64) :
    NuzzleNode.ConnectsIdle topic (s.nuzzleNode n) event := by
  intro hconn
  cases event with
  | connect e =>
      have hconnecting : n ∈ a.connecting := by
        rw [(of_nuzzleEvent hev).2 e rfl]
        rfl
      exact congrArg List.length (h n hconnecting topic)
  | publish | update => simp [NuzzleEvent.connected] at hconn

/-- What makes every request that is under way answerable. -/
structure Sound (id : N → Int32) (s : State B P E N C) : Prop where
  booked : Booked s
  backed : ∀ n, NuzzleNode.Backed (s.nuzzleNode n)
  balanced : ∀ e, EngineNode.Balanced (s.engineNode e)
  senders : ∀ n e, ∀ m ∈ (s.updates (n, e)).sent, Engine.clientId m.get = clientOf (id n)
  clients : ∀ e topic n, ∀ k ∈ (s.engine e).clients topic n, k = clientOf (id n)

omit [DecidableEq B] [DecidableEq P] [DecidableEq E] in
theorem sound_start (groupSize : UInt16) : Sound id (start groupSize : State B P E N C) where
  booked := booked_start groupSize
  backed := fun _ => NuzzleNode.backed_start groupSize
  balanced := fun _ => EngineNode.balanced_start
  senders := fun n e m hm => by simp [start] at hm
  clients := fun e topic n k hk => by simp [start, Engine.new, Engine.clients] at hk

theorem sound_next (hinv : Sound id s)
    (hid : ∀ f ∈ a.forwarded, ∀ e, (f.2 e).header.senderId = id f.1)
    (hidle : ConnectsUnsubscribed s a) (h : next s a = some s') : Sound id s' := by
  refine ⟨booked_next hinv.booked h, fun n => ?_, fun e => ?_, fun n e => ?_, fun e => ?_⟩
  · exact (nuzzleNode_simulates n s a s' h).preserves (hinv.backed n) fun event hev hnode =>
      NuzzleNode.backed_next (hinv.backed n) (hidle.idle hev) hnode
  · exact (engineNode_simulates e s a s' h).preserves (hinv.balanced e) fun event _ hnode =>
      EngineNode.balanced_next (hinv.balanced e) hnode
  · refine (nuzzleNode_simulates n s a s' h).preserves
      (I := fun node => ∀ m ∈ node.updates e, Engine.clientId m.get = clientOf (id n))
      (hinv.senders n e) fun event hev hnode m hm => ?_
    cases event with
    | connect e' =>
        obtain ⟨-, hsame⟩ := NuzzleNode.connect_next hnode
        rw [hsame] at hm
        exact hinv.senders n e m hm
    | publish e' m' =>
        rw [(NuzzleNode.updates_next_publish hnode).2.1] at hm
        exact hinv.senders n e m hm
    | update c memory m' =>
        rcases NuzzleNode.clientId_next_update hnode hm with hold | hnew
        · exact hinv.senders n e m hold
        · rw [hnew, hid (n, memory) (by rw [(of_nuzzleEvent hev).1 c memory m' rfl]; rfl) e]
  · refine (engineNode_simulates e s a s' h).preserves
      (I := fun node => ∀ topic n, ∀ k ∈ node.engine.clients topic n, k = clientOf (id n))
      (hinv.clients e) fun event hev hnode topic n k hk => ?_
    rcases EngineNode.mem_clients_next (hinv.balanced e).covered hnode hk with
      hold | ⟨m, rfl, rfl⟩
    · exact hinv.clients e topic n k hold
    · exact hinv.senders n e m (of_engineEvent hev)

/-- A run that forwards under one client identifier for each nuzzle and connects servers
before anyone subscribes. -/
structure Orderly (id : N → Int32) (trace : Trace B P E N C) : Prop where
  clientId : FixedClientId id trace
  connects : ∀ x ∈ trace, ConnectsUnsubscribed x.1 x.2

theorem Sound.run {s₀ : State B P E N C} {trace : Trace B P E N C} (hinit : Sound id s₀)
    (h : Run (Steps next) s₀ trace s) (horderly : Orderly id trace) : Sound id s :=
  h.invariant
    (C := fun s a => (∀ f ∈ a.forwarded, ∀ e, (f.2 e).header.senderId = id f.1) ∧
      ConnectsUnsubscribed s a) (I := Sound id)
    (fun x hx => ⟨horderly.clientId x hx, horderly.connects x hx⟩) hinit
    fun _ _ _ hinv hC hstep => sound_next hinv hC.1 hC.2 hstep

/-- A nuzzle that has handled no request has nobody subscribed, so connecting it then is
orderly. -/
theorem orderly_of_connectedFirst {groupSize : UInt16} {trace : Trace B P E N C}
    (h : Runs groupSize trace s) (hid : FixedClientId id trace)
    (hfirst : ∀ x ∈ trace, ∀ n ∈ x.2.connecting, ∀ c, (x.1.requests (c, n)).received = []) :
    Orderly id trace := by
  refine ⟨hid, fun x hx n hn topic => ?_⟩
  obtain ⟨t₁, t₂, s', -, hbefore, -, -⟩ := h.around hx
  have hbooked : Booked x.1 := hbefore.keeps (booked_start groupSize)
    fun _ _ _ hinv hstep => booked_next hinv hstep
  refine List.eq_nil_iff_forall_not_mem.mpr fun c hc => ?_
  have hcount := hbooked n c topic
  have hpos := List.count_pos_iff.mpr hc
  rw [hfirst x hx n hn c, balance_nil] at hcount
  omega

/-! ## A handler answers whatever waits for it -/

/-- A message is waiting for the handler. -/
def Pending (s : State B P E N C) : Action B P E N C → Prop
  | .pumpOnPublish b p _ => (s.publishes (b, p)).queue ≠ []
  | .pumpOnPrepareAck e p => (s.acks (e, p)).queue ≠ []
  | .engineOnPrepare p e _ _ => (s.prepares (p, e)).queue ≠ []
  | .engineOnUpdate n e => (s.updates (n, e)).queue ≠ []
  | .nuzzleOnPublish e n => (s.fanouts (e, n)).queue ≠ []
  | .nuzzleOnUpdate c n _ => (s.requests (c, n)).queue ≠ []
  | .consumerOnPublish n c _ _ => (s.deliveries (n, c)).queue ≠ []
  | _ => False

omit [DecidableEq B] [DecidableEq P] [DecidableEq E] [DecidableEq N] in
/-- A nuzzle can answer the update at the front of a channel. -/
theorem Booked.isSome_update (hinv : Booked s) {c : C} {n : N}
    (hsolvent : Solvent (s.requests (c, n)).sent) (memory : E → RequestUpdateSubscription)
    {m : RequestUpdateSubscriptionProto} {ch : Channel RequestUpdateSubscriptionProto}
    (hpop : (s.requests (c, n)).pop? = some (m, ch)) :
    ((s.nuzzle n).onUpdateSubscriptionReceive memory c
      (Nuzzle.MsgUpdateSubscriptionReqRx.get m)).isSome = true := by
  rw [Nuzzle.onUpdateSubscriptionReceive_isSome_iff]
  by_cases hsub : m.get.isSubscribe = true
  · exact Or.inl hsub
  · have hsent : (s.requests (c, n)).sent = (s.requests (c, n)).received ++ m :: ch.queue := by
      rw [Channel.sent, (Channel.pop?_eq_some hpop).1]
    rw [hsent] at hsolvent
    have hpos := hsolvent.head (by simpa using hsub)
    rw [← hinv n c m.topicId] at hpos
    exact Or.inr (List.count_pos_iff.mp (by exact_mod_cast hpos))

omit [DecidableEq B] [DecidableEq P] [DecidableEq E] in
/-- An engine can answer the update at the front of a channel. -/
theorem Sound.isSome_update (hinv : Sound id s) {n : N} {e : E}
    {m : RequestUpdateSubscriptionProto} {ch : Channel RequestUpdateSubscriptionProto}
    (hpop : (s.updates (n, e)).pop? = some (m, ch)) :
    ((s.engine e).onUpdateSubscriptionReceive n
      (Engine.MsgUpdateSubscriptionReqRx.get m)).isSome = true := by
  have hcov : (s.engine e).Covered := (hinv.balanced e).covered
  rw [Engine.onUpdateSubscriptionReceive_isSome_iff hcov]
  by_cases hsub : m.get.isSubscribe = true
  · exact Or.inl hsub
  · have hsent : (s.updates (n, e)).sent = (s.updates (n, e)).received ++ m :: ch.queue := by
      rw [Channel.sent, (Channel.pop?_eq_some hpop).1]
    -- with the unsubscribe itself the balance is still not negative, so before it was not zero
    have hafter := (hinv.backed n).nonneg m.topicId e ((s.updates (n, e)).received.length + 1)
    have htake : ((s.nuzzleNode n).updates e).take ((s.updates (n, e)).received.length + 1) =
        (s.updates (n, e)).received ++ [m] := by
      simp [nuzzleNode, hsent, List.take_append]
    have htopic : m.get.topicId = m.topicId := rfl
    rw [htake, balance_snoc, weight, htopic, if_pos rfl, if_neg hsub] at hafter
    have hclients := (hinv.balanced e).clients_eq m.topicId n
    simp only [engineNode] at hclients
    obtain ⟨k, hk⟩ := List.exists_mem_of_length_pos
      (l := (s.engine e).clients m.topicId n) (by omega)
    have hsame : Engine.clientId m.get = k := by
      rw [hinv.clients e _ n k hk]
      exact hinv.senders n e m (by rw [hsent]; simp)
    exact Or.inr (hsame ▸ hk)

/-- Where the updates that wait can be answered, a handler can be called exactly when a
message is waiting for it. -/
theorem isSome_next_iff_pending
    (hengine : ∀ n e m ch, (s.updates (n, e)).pop? = some (m, ch) →
      ((s.engine e).onUpdateSubscriptionReceive n
        (Engine.MsgUpdateSubscriptionReqRx.get m)).isSome = true)
    (hnuzzle : ∀ c n m ch memory, (s.requests (c, n)).pop? = some (m, ch) →
      ((s.nuzzle n).onUpdateSubscriptionReceive memory c
        (Nuzzle.MsgUpdateSubscriptionReqRx.get m)).isSome = true)
    (hhandler : a.isHandler = true) : (next s a).isSome = true ↔ Pending s a := by
  constructor
  · intro h
    obtain ⟨s', hs'⟩ := Option.isSome_iff_exists.mp h
    cases a with
    | pumpOnPublish b p memory =>
        obtain ⟨m, ch, r, hpop, -, -⟩ := pumpOnPublish_next hs'
        simp [Pending, (Channel.pop?_eq_some hpop).1]
    | pumpOnPrepareAck e p =>
        obtain ⟨m, ch, hpop, -⟩ := pumpOnPrepareAck_next hs'
        simp [Pending, (Channel.pop?_eq_some hpop).1]
    | engineOnPrepare p e ackMemory publishMemory =>
        obtain ⟨m, ch, r, hpop, -, -⟩ := engineOnPrepare_next hs'
        simp [Pending, (Channel.pop?_eq_some hpop).1]
    | engineOnUpdate n e =>
        obtain ⟨m, ch, engine, hpop, -, -⟩ := engineOnUpdate_next hs'
        simp [Pending, (Channel.pop?_eq_some hpop).1]
    | nuzzleOnPublish e n =>
        obtain ⟨m, ch, r, hpop, -, -⟩ := nuzzleOnPublish_next hs'
        simp [Pending, (Channel.pop?_eq_some hpop).1]
    | nuzzleOnUpdate c n memory =>
        obtain ⟨m, ch, nuzzle, out, hpop, -, -⟩ := nuzzleOnUpdate_next hs'
        simp [Pending, (Channel.pop?_eq_some hpop).1]
    | consumerOnPublish n c now now' =>
        obtain ⟨m, ch, hpop, -⟩ := consumerOnPublish_next hs'
        simp [Pending, (Channel.pop?_eq_some hpop).1]
    | _ => simp [Action.isHandler] at hhandler
  · intro h
    cases a with
    | pumpOnPublish | pumpOnPrepareAck | engineOnPrepare | nuzzleOnPublish
    | consumerOnPublish =>
        obtain ⟨m, ch, hpop⟩ := Channel.exists_pop? h
        simp [next, hpop]
    | engineOnUpdate n e =>
        obtain ⟨m, ch, hpop⟩ := Channel.exists_pop? h
        obtain ⟨engine, hup⟩ := Option.isSome_iff_exists.mp (hengine n e m ch hpop)
        simp [next, hpop, hup]
    | nuzzleOnUpdate c n memory =>
        obtain ⟨m, ch, hpop⟩ := Channel.exists_pop? h
        obtain ⟨r, hup⟩ := Option.isSome_iff_exists.mp (hnuzzle c n m ch memory hpop)
        simp [next, hpop, hup]
    | _ => simp [Action.isHandler] at hhandler

theorem Sound.isSome_next_iff (hinv : Sound id s)
    (hsolvent : ∀ link, Solvent (s.requests link).sent) (hhandler : a.isHandler = true) :
    (next s a).isSome = true ↔ Pending s a :=
  isSome_next_iff_pending (fun _ _ _ _ hpop => hinv.isSome_update hpop)
    (fun c n _ _ memory hpop => hinv.booked.isSome_update (hsolvent (c, n)) memory hpop) hhandler

/-- In an orderly run in which no consumer takes back a subscription it does not have, a
handler can be called exactly when a message is waiting for it, whatever was in memory. -/
theorem handlers_defined {groupSize : UInt16} {trace : Trace B P E N C}
    (h : Runs groupSize trace s) (horderly : Orderly id trace)
    (hsolvent : ∀ link, Solvent (s.requests link).sent) (a : Action B P E N C)
    (hhandler : a.isHandler = true) : (next s a).isSome = true ↔ Pending s a :=
  ((sound_start groupSize).run h horderly).isSome_next_iff hsolvent hhandler

/-- A consumer subscribes and takes it back, and its nuzzle has told the engine of both. -/
def subscribeUnsubscribe (e : E) (n : N) (c : C) : List (Action B P E N C) :=
  [.nuzzleConnectToEngine n e, .connectToNuzzle c n,
    .updateSubscribtion c (.on 7 1), .nuzzleOnUpdate c n (fun _ => default),
    .updateSubscribtion c (.on 7 0), .nuzzleOnUpdate c n (fun _ => default),
    .engineOnUpdate n e]

/-- There the engine can answer the unsubscribe that is waiting. -/
theorem handlers_defined_subscribeUnsubscribe :
    ∃ (trace : Trace (Fin 1) (Fin 1) (Fin 1) (Fin 1) (Fin 1))
      (s : State (Fin 1) (Fin 1) (Fin 1) (Fin 1) (Fin 1)), Runs 1 trace s ∧
        Pending s (.engineOnUpdate 0 0) ∧ (next s (.engineOnUpdate 0 0)).isSome = true := by
  obtain ⟨trace, s, hrun, hid, hfirst, hsolvent, hpending⟩ :=
    exists_run_of_execute (subscribeUnsubscribe 0 0 0) next
      (start 1 : State (Fin 1) (Fin 1) (Fin 1) (Fin 1) (Fin 1))
      (fun trace s => FixedClientId (fun _ => 0) trace ∧
        (∀ x ∈ trace, ∀ n ∈ x.2.connecting, ∀ c, (x.1.requests (c, n)).received = []) ∧
        (∀ link, Solvent (s.requests link).sent) ∧ (s.updates (0, 0)).queue ≠ [])
      (by decide +kernel)
  exact ⟨trace, s, hrun, hpending, (handlers_defined hrun
    (orderly_of_connectedFirst hrun hid hfirst) hsolvent (.engineOnUpdate 0 0) rfl).mpr hpending⟩

end State

end Firehose.Cluster
