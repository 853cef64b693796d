import Firehose.Cluster.Draining

set_option autoImplicit false

/-!
# Where messages are sent, and why

An engine sends a prepare on to every nuzzle it lists, once for each entry, and a nuzzle
delivers to every consumer it lists.  The lists follow the requests of the consumers: the
exact number of entries an engine has, what the lists come to when no request is under
way, and that nobody is handed what it has not asked for.
-/

namespace Firehose.Cluster

open Firehose.Api Firehose.Foundation Firehose.Node
open Function (update)
open Channel (addressedTo)

theorem subscribes_snoc (topic : UInt64) (ms : List RequestUpdateSubscriptionProto)
    (m : RequestUpdateSubscriptionProto) :
    subscribes topic (ms ++ [m]) =
      subscribes topic ms + if m.get.topicId = topic ∧ m.get.isSubscribe = true then 1 else 0 := by
  unfold subscribes
  by_cases hboth : m.get.topicId = topic ∧ m.get.isSubscribe = true
  · simp [List.countP_append, hboth]
  · have hnone : (decide (m.get.topicId = topic) && m.get.isSubscribe) = false := by
      simpa using hboth
    simp [List.countP_append, hnone, hboth]

theorem balance_append (topic : UInt64) (l₁ l₂ : List RequestUpdateSubscriptionProto) :
    balance topic (l₁ ++ l₂) = balance topic l₁ + balance topic l₂ := by
  unfold balance subscribes unsubscribes
  rw [List.countP_append, List.countP_append]
  push_cast
  ring

/-- A positive balance has a subscribe in it. -/
theorem exists_subscribe {topic : UInt64} {ms : List RequestUpdateSubscriptionProto}
    (h : 0 < balance topic ms) :
    ∃ m ∈ ms, m.get.topicId = topic ∧ m.get.isSubscribe = true := by
  have hpos : 0 < subscribes topic ms := by
    unfold balance at h
    omega
  obtain ⟨m, hm, hboth⟩ := List.countP_pos_iff.mp hpos
  simp only [Bool.and_eq_true, decide_eq_true_eq] at hboth
  exact ⟨m, hm, hboth⟩

/-! ## How often an engine lists a nuzzle -/

namespace EngineNode

variable {P N : Type} [DecidableEq P] [DecidableEq N]

/-- The event takes the last client of the nuzzle connection off the topic. -/
def Empties (topic : UInt64) (n : N) (node : EngineNode P N) : EngineEvent P N → Prop
  | .update n' m =>
      n' = n ∧ m.get.topicId = topic ∧ m.get.isSubscribe = false ∧
        (node.engine.clients topic n).length = 1
  | _ => False

instance (topic : UInt64) (n : N) (node : EngineNode P N) (event : EngineEvent P N) :
    Decidable (Empties topic n node event) :=
  match event with
  | .update n' m => inferInstanceAs (Decidable (n' = n ∧ m.get.topicId = topic ∧
      m.get.isSubscribe = false ∧ (node.engine.clients topic n).length = 1))
  | .prepare .. | .accept .. => isFalse id

/-- How often the nuzzle connection has lost its last client on the topic. -/
def emptied (topic : UInt64) (n : N) (trace : List (EngineNode P N × EngineEvent P N)) : Nat :=
  trace.countP fun x => decide (Empties topic n x.1 x.2)

/-- Every subscribe adds an entry, and an entry goes only with the last client. -/
theorem listed_next {node node' : EngineNode P N} {event : EngineEvent P N}
    (hbal : Balanced node) (h : Steps next node event node') (topic : UInt64) (n : N) :
    (node'.engine.subscriptions.get topic).count n + subscribes topic (node.updates n) +
        (if Empties topic n node event then 1 else 0) =
      (node.engine.subscriptions.get topic).count n + subscribes topic (node'.updates n) := by
  cases event with
  | prepare p ackMemory publishMemory m =>
      simp only [Steps, next, Option.some.injEq] at h
      subst h
      simp [Empties]
  | accept p request =>
      simp only [Steps, next, Option.some.injEq] at h
      subst h
      simp [Empties, Engine.onAcceptReceive]
  | update n' m =>
      obtain ⟨engine, hup, rfl⟩ := update_next h
      have hsent : subscribes topic (update node.updates n' (node.updates n' ++ [m]) n) =
          subscribes topic (node.updates n) +
            if n' = n ∧ m.get.topicId = topic ∧ m.get.isSubscribe = true then 1 else 0 := by
        by_cases hn : n' = n
        · subst hn
          simp [subscribes_snoc]
        · simp [hn, Ne.symm hn]
      show (engine.subscriptions.get topic).count n + subscribes topic (node.updates n) + _ =
        _ + subscribes topic (update node.updates n' (node.updates n' ++ [m]) n)
      rw [hsent]
      rcases Engine.onUpdateSubscriptionReceive_cases hup with ⟨hsub, rfl⟩ | ⟨hsub, hun⟩
      · rw [Engine.subscribe_subscriptions_get]
        simp only [Empties, hsub, and_true, Bool.true_eq_false, false_and, and_false, if_false]
        by_cases ht : topic = m.get.topicId
        · by_cases hn : n' = n <;> simp [ht, hn, List.count_append]
          omega
        · simp [ht, Ne.symm ht]
      · obtain ⟨hmem, -, -, hsubs⟩ := Engine.unsubscribe_eq_some hun
        rw [hsubs]
        simp only [Empties, hsub, and_false, Bool.false_eq_true, if_false, true_and]
        by_cases ht : topic = m.get.topicId
        · subst ht
          have hlen := List.length_erase_of_mem hmem
          have hpos := List.length_pos_of_mem hmem
          have hlast : ((node.engine.clients m.get.topicId n').erase
              (Engine.clientId m.get)).length = 0 ↔
                (node.engine.clients m.get.topicId n').length = 1 := by omega
          simp only [hlast, true_and]
          by_cases hn : n' = n
          · subst hn
            have hcov := hbal.covered m.get.topicId n'
            by_cases hone : (node.engine.clients m.get.topicId n').length = 1
            · simp only [hone, if_true, and_self, List.count_erase_self]
              omega
            · simp [hone]
          · split
            · simp [hn, List.count_erase_of_ne (Ne.symm hn)]
            · simp [hn]
        · simp [ht, Ne.symm ht]

theorem listed_run {trace : List (EngineNode P N × EngineEvent P N)} {node : EngineNode P N}
    (h : Run (Steps next) start trace node) (topic : UInt64) (n : N) :
    (node.engine.subscriptions.get topic).count n + emptied topic n trace =
      subscribes topic (node.updates n) := by
  induction h with
  | refl => simp [start, Engine.new, emptied, subscribes]
  | @snoc trace node node' event hrun hstep ih =>
      have hone := listed_next (balanced_run hrun) hstep topic n
      have hcount : emptied topic n (trace ++ [(node, event)]) =
          emptied topic n trace + if Empties topic n node event then 1 else 0 := by
        simp [emptied, List.countP_append, List.countP_singleton]
      rw [hcount]
      omega

/-- A prepare goes out to a nuzzle connection as often as it has subscribed to the topic,
less the times it has lost its last client there; an unsubscribe of another client leaves
the entry of its subscribe behind. -/
theorem fanout_law {trace : List (EngineNode P N × EngineEvent P N)} {node node' : EngineNode P N}
    (h : Run (Steps next) start trace node) {p : P} {ackMemory : ResponsePrepare}
    {publishMemory : RequestPublish} {m : RequestPrepareProto}
    (hstep : Steps next node (.prepare p ackMemory publishMemory m) node') (n : N) :
    node'.fanouts n = node.fanouts n ++
        List.replicate (subscribes m.topicId (node.updates n) - emptied m.topicId n trace)
          (Engine.MsgPublishReqTx.set (Engine.publishOf publishMemory m.get)) ∧
      ((node.engine.clients m.topicId n).length : Int) = balance m.topicId (node.updates n) := by
  have hlisted := listed_run h m.topicId n
  have hcount : (node.engine.subscriptions.get m.topicId).count n =
      subscribes m.topicId (node.updates n) - emptied m.topicId n trace := by omega
  refine ⟨?_, (balanced_run h).clients_eq m.topicId n⟩
  rw [← hcount]
  exact fanouts_next_prepare hstep n

/-- Two clients of one nuzzle subscribe and both unsubscribe. -/
def bothLeave (n : N) : List (EngineEvent P N) :=
  [.update n { (RequestUpdateSubscription.on 7 1).set with header := ⟨some 1, none, none⟩ },
    .update n { (RequestUpdateSubscription.on 7 1).set with header := ⟨some 2, none, none⟩ },
    .update n { (RequestUpdateSubscription.on 7 0).set with header := ⟨some 1, none, none⟩ },
    .update n { (RequestUpdateSubscription.on 7 0).set with header := ⟨some 2, none, none⟩ }]

/-- A prepare still goes out to the nuzzle, though it has no client left. -/
theorem fanout_law_bothLeave :
    ∃ (trace : List (EngineNode (Fin 1) (Fin 1) × EngineEvent (Fin 1) (Fin 1)))
      (node node' : EngineNode (Fin 1) (Fin 1)), Run (Steps next) start trace node ∧
        ((node.engine.clients 7 0).length : Int) = 0 ∧
        (node'.fanouts 0).length = (node.fanouts 0).length + 1 := by
  obtain ⟨trace, node, hrun, hsubs, hemptied, hbalance⟩ :=
    exists_run_of_execute (bothLeave 0) next (start : EngineNode (Fin 1) (Fin 1))
      (fun trace node => subscribes 7 (node.updates 0) = 2 ∧ emptied 7 0 trace = 1 ∧
        balance 7 (node.updates 0) = 0) (by decide +kernel)
  obtain ⟨m, hm⟩ : ∃ m : RequestPrepareProto, m.topicId = 7 :=
    ⟨{ (default : RequestPrepareProto) with topicId := 7 }, rfl⟩
  obtain ⟨node', hstep⟩ : ∃ node', next node (.prepare 0 default default m) = some node' :=
    ⟨_, rfl⟩
  obtain ⟨hfan, hclients⟩ := fanout_law hrun hstep 0
  rw [hm] at hfan hclients
  refine ⟨trace, node, node', hrun, hclients.trans hbalance, ?_⟩
  rw [hfan, List.length_append, List.length_replicate, hsubs, hemptied]

end EngineNode

namespace State

variable {B P E N C : Type}
variable [DecidableEq B] [DecidableEq P] [DecidableEq E] [DecidableEq N] [DecidableEq C]
variable {groupSize : UInt16} {trace : Trace B P E N C} {s s' : State B P E N C}
  {a : Action B P E N C}

/-! ## What the lists come to -/

/-- In a run that connects its nuzzles before anyone subscribes, an engine has as many
clients of a nuzzle as the nuzzle has entries, up to the updates under way, and the nuzzle
has as many entries of a consumer as its requests balance to, up to those under way; so
with nothing under way the engine serves the nuzzle if a consumer is subscribed at it, and
has no client there if none is. -/
theorem routes_converge (h : Runs groupSize trace s)
    (hconnects : ∀ x ∈ trace, ConnectsUnsubscribed x.1 x.2) {n : N} {e : E}
    (he : e ∈ (s.nuzzle n).engineConnections) (topic : UInt64) :
    ((s.engine e).clients topic n).length + balance topic (s.updates (n, e)).queue =
        ((s.nuzzle n).subscriptions.get topic).length ∧
      (∀ c, (((s.nuzzle n).subscriptions.get topic).count c : Int) +
        balance topic (s.requests (c, n)).queue = balance topic (s.requests (c, n)).sent) ∧
      ((s.updates (n, e)).queue = [] → (∀ c, (s.requests (c, n)).queue = []) →
        ((∃ c, 0 < balance topic (s.requests (c, n)).sent) →
          n ∈ (s.engine e).subscriptions.get topic) ∧
        ((∀ c, balance topic (s.requests (c, n)).sent = 0) →
          (s.engine e).clients topic n = [])) := by
  have hbooked : Booked s := h.keeps (booked_start groupSize)
    fun _ _ _ hinv hstep => booked_next hinv hstep
  have hidle : ∀ x ∈ projectTrace (nuzzleNode · n) (nuzzleEvent n) trace,
      NuzzleNode.ConnectsIdle topic x.1 x.2 :=
    forall_mem_projectTrace.mpr fun x hx event hev => (hconnects x hx).idle hev topic
  have hagree : balance topic (s.updates (n, e)).sent =
      ((s.nuzzle n).subscriptions.get topic).length :=
    ((NuzzleNode.agreesOn_throughout_iff (h.nuzzleNode n) topic).mpr hidle).2 e he
  have hbalanced : EngineNode.Balanced (s.engineNode e) := EngineNode.balanced_run (h.engineNode e)
  have hclients : (((s.engine e).clients topic n).length : Int) =
      balance topic (s.updates (n, e)).received := hbalanced.clients_eq topic n
  have hroutes : ((s.engine e).clients topic n).length + balance topic (s.updates (n, e)).queue =
      ((s.nuzzle n).subscriptions.get topic).length := by
    rw [hclients, ← balance_append, ← hagree]
    rfl
  have hentries : ∀ c, (((s.nuzzle n).subscriptions.get topic).count c : Int) +
      balance topic (s.requests (c, n)).queue = balance topic (s.requests (c, n)).sent := by
    intro c
    rw [hbooked n c topic, ← balance_append]
    rfl
  refine ⟨hroutes, hentries, fun hupdates hrequests => ⟨?_, fun hnone => ?_⟩⟩
  · rintro ⟨c, hpos⟩
    have hcount := hentries c
    rw [hrequests c, balance_nil] at hcount
    have hmem := List.length_pos_of_mem (List.count_pos_iff.mp
      (show 0 < ((s.nuzzle n).subscriptions.get topic).count c by omega))
    rw [hupdates, balance_nil] at hroutes
    refine hbalanced.mem_subscriptions ?_
    rw [← hbalanced.clients_eq topic n]
    simp only [engineNode]
    omega
  · have hempty : (s.nuzzle n).subscriptions.get topic = [] := by
      refine List.eq_nil_iff_forall_not_mem.mpr fun c hc => ?_
      have hcount := hentries c
      have hpos := List.count_pos_iff.mpr hc
      rw [hrequests c, balance_nil, hnone c] at hcount
      omega
    rw [hupdates, balance_nil, hempty] at hroutes
    exact List.length_eq_zero_iff.mp (by simpa using hroutes)

/-- A consumer has subscribed, taken it back and subscribed again, and all of it has been
handled. -/
def subscribedAgain (e : E) (n : N) (c : C) : List (Action B P E N C) :=
  [.nuzzleConnectToEngine n e, .connectToNuzzle c n,
    .updateSubscribtion c (.on 7 1), .updateSubscribtion c (.on 7 0),
    .updateSubscribtion c (.on 7 1), .nuzzleOnUpdate c n (fun _ => default),
    .nuzzleOnUpdate c n (fun _ => default), .engineOnUpdate n e,
    .nuzzleOnUpdate c n (fun _ => default), .engineOnUpdate n e, .engineOnUpdate n e]

theorem routes_converge_subscribedAgain :
    ∃ (trace : Trace (Fin 1) (Fin 1) (Fin 1) (Fin 1) (Fin 1))
      (s : State (Fin 1) (Fin 1) (Fin 1) (Fin 1) (Fin 1)), Runs 1 trace s ∧ Quiescent s ∧
        (0 : Fin 1) ∈ (s.engine 0).subscriptions.get 7 := by
  obtain ⟨trace, s, hrun, hid, hfirst, hquiet, hconn, hbalance⟩ :=
    exists_run_of_execute (subscribedAgain 0 0 0) next
      (start 1 : State (Fin 1) (Fin 1) (Fin 1) (Fin 1) (Fin 1))
      (fun trace s => FixedClientId (fun _ => 0) trace ∧
        (∀ x ∈ trace, ∀ n ∈ x.2.connecting, ∀ c, (x.1.requests (c, n)).received = []) ∧
        Quiescent s ∧ 0 ∈ (s.nuzzle 0).engineConnections ∧
        0 < balance 7 (s.requests (0, 0)).sent)
      (by decide +kernel)
  obtain ⟨-, -, hconverge⟩ := routes_converge hrun
    (orderly_of_connectedFirst hrun hid hfirst).connects hconn 7
  obtain ⟨-, -, -, hupdates, -, hrequests, -⟩ := id hquiet
  exact ⟨trace, s, hrun, hquiet,
    (hconverge (hupdates (0, 0)) fun c => hrequests (c, 0)).1 ⟨0, hbalance⟩⟩

/-! ## Nobody is handed what it has not asked for -/

/-- What a step adds to the connection of a nuzzle to a consumer: it is a handler of the
nuzzle, and what it adds is on topics under which it lists the consumer. -/
theorem deliveries_next (h : next s a = some s') (n : N) (c : C) :
    ∃ added, (s'.deliveries (n, c)).sent = (s.deliveries (n, c)).sent ++ added ∧
      ∀ m ∈ added, (∃ e, a = .nuzzleOnPublish e n) ∧
        c ∈ (s.nuzzle n).subscriptions.get m.topicId := by
  rcases (clientChannels_next h).2 with hsame | ⟨e, n', rfl⟩ | ⟨n', c', now, now', rfl⟩
  · exact ⟨[], by rw [hsame, List.append_nil], by simp⟩
  · obtain ⟨m', ch, r, -, rfl, rfl⟩ := nuzzleOnPublish_next h
    by_cases hn : n = n'
    · subst hn
      refine ⟨_, Channel.sent_post_self _ _ _ _, fun m hm => ⟨⟨e, rfl⟩, ?_⟩⟩
      obtain ⟨o, ho, heq⟩ := List.mem_map.mp (Channel.mem_addressedTo.mp hm)
      obtain ⟨rfl, rfl⟩ := Prod.mk.inj heq
      have hrequest := Nuzzle.eq_of_mem_onPublishReceive ho
      simp only [Nuzzle.onPublishReceive] at ho
      split at ho
      · obtain ⟨consumer, hconsumer, rfl⟩ := List.mem_map.mp ho
        exact hconsumer
      · simp at ho
    · exact ⟨[], by rw [Channel.sent_post_ne _ c _ hn, List.append_nil], by simp⟩
  · obtain ⟨m', ch, hpop, rfl⟩ := consumerOnPublish_next h
    exact ⟨[], by rw [Channel.sent_update_pop? hpop, List.append_nil], by simp⟩

/-- What is new on the connection of a consumer to its nuzzle is what the consumer has just
asked for. -/
theorem mem_requests_next (h : next s a = some s') {c : C} {n : N}
    {m : RequestUpdateSubscriptionProto} (hm : m ∈ (s'.requests (c, n)).sent) :
    m ∈ (s.requests (c, n)).sent ∨ ∃ request, a = .updateSubscribtion c request ∧
      m = Consumer.MsgUpdateSubscriptionReqTx.set request := by
  by_cases hhandler : a.isHandler = true
  · exact Or.inl (by rwa [requests_sent_of_handler hhandler h] at hm)
  · cases a with
    | connectToPump =>
        obtain rfl := connectToPump_next h
        exact Or.inl hm
    | pumpConnectToEngine =>
        obtain ⟨-, rfl⟩ := pumpConnectToEngine_next h
        exact Or.inl hm
    | nuzzleConnectToEngine =>
        obtain ⟨-, rfl⟩ := nuzzleConnectToEngine_next h
        exact Or.inl hm
    | connectToNuzzle =>
        obtain rfl := connectToNuzzle_next h
        exact Or.inl hm
    | publish =>
        obtain ⟨_, _, _, -, rfl⟩ := publish_next h
        exact Or.inl hm
    | updateSubscribtion c' request =>
        obtain ⟨n', sent, hupdate, rfl⟩ := updateSubscribtion_next h
        obtain ⟨connection, -, heq⟩ := Option.map_eq_some_iff.mp hupdate
        obtain ⟨-, rfl⟩ := Prod.mk.inj heq
        by_cases hc : c = c'
        · subst hc
          refine (Channel.mem_sent_post hm).imp_right fun hout => ?_
          rw [List.mem_singleton, Prod.mk.injEq] at hout
          exact ⟨request, rfl, hout.2⟩
        · exact Or.inl (by simpa only [Channel.sent_post_ne _ n _ hc] using hm)
    | _ => simp [Action.isHandler] at hhandler

theorem requests_run (h : Runs groupSize trace s) {c : C} {n : N}
    {m : RequestUpdateSubscriptionProto} (hm : m ∈ (s.requests (c, n)).sent) :
    ∃ x ∈ trace, ∃ request, x.2 = .updateSubscribtion c request ∧
      m = Consumer.MsgUpdateSubscriptionReqTx.set request := by
  induction h with
  | refl => simp [start] at hm
  | @snoc trace s s' a hrun hstep ih =>
      rcases mem_requests_next hstep hm with hold | ⟨request, ha, hreq⟩
      · obtain ⟨x, hx, hrest⟩ := ih hold
        exact ⟨x, List.mem_append_left _ hx, hrest⟩
      · exact ⟨_, List.mem_append_right _ (List.mem_singleton.mpr rfl), request, ha, hreq⟩

/-- Each message on the connection of a nuzzle to a consumer has been put there by a handler
of the nuzzle, run while the nuzzle lists the consumer. -/
theorem delivered_run (h : Runs groupSize trace s) {n : N} {c : C} {i : Nat}
    {m : RequestPublishProto} (hm : (s.deliveries (n, c)).sent[i]? = some m) :
    ∃ t₁ x t₂ s₁, trace = t₁ ++ x :: t₂ ∧ next x.1 x.2 = some s₁ ∧
      (x.1.deliveries (n, c)).sent.length ≤ i ∧ (s₁.deliveries (n, c)).sent[i]? = some m ∧
      (∃ e, x.2 = .nuzzleOnPublish e n) ∧
      0 < balance m.topicId (x.1.requests (c, n)).received := by
  obtain ⟨t₁, x, t₂, s₁, rfl, hbefore, hstep, hnew, hsent⟩ :=
    h.exists_added (f := fun s => (s.deliveries (n, c)).sent)
      (fun s a s' hstep => by
        obtain ⟨added, hadded, -⟩ := deliveries_next hstep n c
        exact ⟨added, hadded.symm⟩)
      (Nat.zero_le i) hm
  obtain ⟨added, hadded, hlists⟩ := deliveries_next hstep n c
  have hmem : m ∈ added := by
    rw [hadded, List.getElem?_append_right hnew] at hsent
    exact List.mem_of_getElem? hsent
  obtain ⟨hdelivers, hlisted⟩ := hlists m hmem
  refine ⟨t₁, x, t₂, s₁, rfl, hstep, hnew, hsent, hdelivers, ?_⟩
  have hbooked : Booked x.1 := Run.keeps hbefore (booked_start groupSize)
    fun _ _ _ hinv hone => booked_next hinv hone
  rw [← hbooked n c m.topicId]
  exact_mod_cast List.count_pos_iff.mpr hlisted

/-- Who has a live subscription has subscribed. -/
theorem subscribed_run (h : Runs groupSize trace s) {n : N} {c : C} {topic : UInt64}
    (hpos : 0 < balance topic (s.requests (c, n)).received) :
    ∃ y ∈ trace, ∃ request, y.2 = .updateSubscribtion c request ∧
      request.topicId = topic ∧ request.set.get.isSubscribe = true := by
  obtain ⟨r, hr, htopic, hsub⟩ := exists_subscribe hpos
  obtain ⟨y, hy, request, hy', rfl⟩ := requests_run h (Channel.mem_sent_of_received hr)
  exact ⟨y, hy, request, hy', htopic, hsub⟩

/-- Each message sent to a consumer is sent in a step of its nuzzle in which the requests that
the nuzzle has handled from the consumer balance to a live subscription to the topic, and the
consumer has subscribed to the topic before.  The message is number `i` on the connection: it
is not there before the step, and is there after it. -/
theorem delivered_solicited (h : Runs groupSize trace s) {n : N} {c : C} {i : Nat}
    {m : RequestPublishProto} (hm : (s.deliveries (n, c)).sent[i]? = some m) :
    ∃ t₁ x t₂ s₁, trace = t₁ ++ x :: t₂ ∧ next x.1 x.2 = some s₁ ∧
      (x.1.deliveries (n, c)).sent.length ≤ i ∧ (s₁.deliveries (n, c)).sent[i]? = some m ∧
      (∃ e, x.2 = .nuzzleOnPublish e n) ∧
      0 < balance m.topicId (x.1.requests (c, n)).received ∧
      ∃ y ∈ t₁, ∃ request, y.2 = .updateSubscribtion c request ∧
        request.topicId = m.topicId ∧ request.set.get.isSubscribe = true := by
  obtain ⟨t₁, x, t₂, s₁, rfl, hstep, hnew, hsent, hdelivers, hpos⟩ := delivered_run h hm
  exact ⟨t₁, x, t₂, s₁, rfl, hstep, hnew, hsent, hdelivers, hpos,
    subscribed_run (Run.before h) hpos⟩

theorem delivered_solicited_oneDelivery :
    ∃ (trace : Trace (Fin 1) (Fin 1) (Fin 1) (Fin 1) (Fin 1))
      (s : State (Fin 1) (Fin 1) (Fin 1) (Fin 1) (Fin 1)), Runs 1 trace s ∧
        ∃ m, (s.deliveries (0, 0)).sent[0]? = some m ∧ ∃ t₁ x t₂ s₁, trace = t₁ ++ x :: t₂ ∧
          next x.1 x.2 = some s₁ ∧ (s₁.deliveries (0, 0)).sent[0]? = some m ∧
          0 < balance m.topicId (x.1.requests (0, 0)).received := by
  obtain ⟨trace, s, hrun, hsome⟩ :=
    exists_run_of_execute (oneDelivery 0 0 0 0 0) next
      (start 1 : State (Fin 1) (Fin 1) (Fin 1) (Fin 1) (Fin 1))
      (fun _ s => ((s.deliveries (0, 0)).sent[0]?).isSome = true) (by decide +kernel)
  obtain ⟨m, hm⟩ := Option.isSome_iff_exists.mp hsome
  obtain ⟨t₁, x, t₂, s₁, hcut, hstep, -, hsent, -, hpos, -⟩ := delivered_solicited hrun hm
  exact ⟨trace, s, hrun, m, hm, t₁, x, t₂, s₁, hcut, hstep, hsent, hpos⟩

end State

end Firehose.Cluster
