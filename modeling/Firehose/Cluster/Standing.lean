import Firehose.Cluster.Programs

set_option autoImplicit false

/-!
# Subscriptions stand under the programs

The program of a consumer subscribes and never takes anything back, and a nuzzle forwards a
subscribe as a subscribe.  So the lists of the nuzzles and the engines only grow, no handler
is undefined on what it is handed, and the handlers bring the system to rest, in whatever
order the programs connect and whatever was in memory.
-/

namespace Firehose.Cluster

open Firehose.Api Firehose.Foundation Firehose.Node
open Function (update)

theorem isSubscribe_of_weight_pos {topic : UInt64} {m : RequestUpdateSubscriptionProto}
    (h : 0 < weight topic m) : m.get.isSubscribe = true := by
  unfold weight at h
  split at h
  · split at h
    · assumption
    · omega
  · omega

namespace NuzzleNode

variable {E C : Type} [DecidableEq E] [DecidableEq C]
variable {node node' : NuzzleNode E C} {event : NuzzleEvent E C}

/-- What goes out in answer to a subscribe are subscribes. -/
theorem isSubscribe_next_update {c : C} {memory : E → RequestUpdateSubscription}
    {m : RequestUpdateSubscriptionProto} (h : Steps next node (.update c memory m) node')
    (hsub : m.get.isSubscribe = true) {e : E} {sent : RequestUpdateSubscriptionProto}
    (hsent : sent ∈ node'.updates e) :
    sent ∈ node.updates e ∨ sent.get.isSubscribe = true := by
  obtain ⟨-, hupdates, -, -⟩ := updates_next_update h
  obtain ⟨forwarded, hweight, heq⟩ := hupdates e
  rw [heq] at hsent
  rcases List.mem_append.mp hsent with hold | hnew
  · exact Or.inl hold
  · obtain rfl := List.eq_of_mem_replicate hnew
    have hpos : 0 < weight m.get.topicId sent := by
      rw [hweight, weight, if_pos rfl, if_pos hsub]
      exact Int.one_pos
    exact Or.inr (isSubscribe_of_weight_pos hpos)

/-- A step that takes nothing back leaves the list of a topic where it was, or adds to it. -/
theorem subscriptions_prefix_next
    (hsub : ∀ c memory m, event = .update c memory m → m.get.isSubscribe = true)
    (h : Steps next node event node') (topic : UInt64) :
    node.nuzzle.subscriptions.get topic <+: node'.nuzzle.subscriptions.get topic := by
  cases event with
  | connect e =>
      obtain ⟨-, rfl⟩ := connect_next h
      exact List.prefix_refl _
  | publish e m =>
      rw [(updates_next_publish h).2.2]
  | update c memory m =>
      obtain ⟨-, -, hother, hown⟩ := updates_next_update h
      rw [if_pos (hsub c memory m rfl)] at hown
      by_cases ht : topic = m.topicId
      · rw [ht, hown]
        exact List.prefix_append _ _
      · rw [hother topic ht]

end NuzzleNode

namespace EngineNode

variable {P N : Type} [DecidableEq P] [DecidableEq N]
variable {node node' : EngineNode P N} {event : EngineEvent P N}

theorem subscriptions_prefix_next (hsub : ∀ n m, event = .update n m → m.get.isSubscribe = true)
    (h : Steps next node event node') (topic : UInt64) :
    node.engine.subscriptions.get topic <+: node'.engine.subscriptions.get topic := by
  cases event with
  | prepare p ackMemory publishMemory m =>
      rw [← Option.some.inj h]
      simp [Engine.onPrepareReceive]
  | accept p request =>
      rw [← Option.some.inj h]
      simp [Engine.onAcceptReceive]
  | update n m =>
      obtain ⟨engine, hup, rfl⟩ := update_next h
      rw [Engine.onUpdateSubscriptionReceive, if_pos (hsub n m rfl)] at hup
      obtain rfl := Option.some.inj hup
      rw [Engine.subscribe_subscriptions_get]
      split
      · exact List.prefix_append _ _
      · exact List.prefix_refl _

end EngineNode

/-! ## The system without unsubscribes -/

namespace State

variable {B P E N C : Type}
variable [DecidableEq B] [DecidableEq P] [DecidableEq E] [DecidableEq N] [DecidableEq C]
variable {s s' s'' : State B P E N C} {a : Action B P E N C}

/-- Whatever has been asked for or forwarded is a subscribe. -/
structure OnlySubscribes (s : State B P E N C) : Prop where
  requests : ∀ link, ∀ m ∈ (s.requests link).sent, m.get.isSubscribe = true
  updates : ∀ link, ∀ m ∈ (s.updates link).sent, m.get.isSubscribe = true

omit [DecidableEq B] [DecidableEq P] [DecidableEq E] [DecidableEq N] [DecidableEq C] in
theorem onlySubscribes_start (groupSize : UInt16) :
    OnlySubscribes (start groupSize : State B P E N C) where
  requests := fun _ m hm => by simp [start] at hm
  updates := fun _ m hm => by simp [start] at hm

omit [DecidableEq B] [DecidableEq P] [DecidableEq E] [DecidableEq C] in
/-- A nuzzle sees an update when its handler is called on the front of the channel. -/
theorem mem_requests_of_nuzzleEvent {n : N} {c : C} {memory : E → RequestUpdateSubscription}
    {m : RequestUpdateSubscriptionProto} (h : nuzzleEvent n s a = some (.update c memory m)) :
    m ∈ (s.requests (c, n)).sent := by
  obtain rfl := (of_nuzzleEvent h).1 c memory m rfl
  simp only [nuzzleEvent, if_true] at h
  obtain ⟨m', hm, heq⟩ := Option.map_eq_some_iff.mp h
  obtain ⟨-, -, rfl⟩ := NuzzleEvent.update.inj heq
  exact List.mem_append_right _ (List.mem_of_mem_head? hm)

theorem onlySubscribes_next (hinv : OnlySubscribes s)
    (hask : ∀ c request, a = .updateSubscribtion c request → request.isSubscribe = true)
    (h : next s a = some s') : OnlySubscribes s' := by
  refine ⟨fun ⟨c, n⟩ m hm => ?_, fun ⟨n, e⟩ => ?_⟩
  · rcases mem_requests_next h hm with hold | ⟨request, ha, rfl⟩
    · exact hinv.requests (c, n) m hold
    · exact (RequestUpdateSubscription.get_set_isSubscribe request).trans (hask c request ha)
  · refine (nuzzleNode_simulates n s a s' h).preserves
      (I := fun node => ∀ m ∈ node.updates e, m.get.isSubscribe = true)
      (hinv.updates (n, e)) fun event hev hnode m hm => ?_
    cases event with
    | connect e' =>
        obtain ⟨-, hsame⟩ := NuzzleNode.connect_next hnode
        rw [hsame] at hm
        exact hinv.updates (n, e) m hm
    | publish e' m' =>
        rw [(NuzzleNode.updates_next_publish hnode).2.1] at hm
        exact hinv.updates (n, e) m hm
    | update c memory m' =>
        have hsub := hinv.requests (c, n) m' (mem_requests_of_nuzzleEvent hev)
        exact (NuzzleNode.isSubscribe_next_update hnode hsub hm).elim (hinv.updates (n, e) m) id

/-- Every list of the second state begins with that of the first. -/
structure ListsExtend (s s' : State B P E N C) : Prop where
  nuzzle : ∀ n topic,
    (s.nuzzle n).subscriptions.get topic <+: (s'.nuzzle n).subscriptions.get topic
  engine : ∀ e topic,
    (s.engine e).subscriptions.get topic <+: (s'.engine e).subscriptions.get topic

omit [DecidableEq B] [DecidableEq P] [DecidableEq E] [DecidableEq N] [DecidableEq C] in
theorem listsExtend_refl (s : State B P E N C) : ListsExtend s s :=
  ⟨fun _ _ => List.prefix_refl _, fun _ _ => List.prefix_refl _⟩

omit [DecidableEq B] [DecidableEq P] [DecidableEq E] [DecidableEq N] [DecidableEq C] in
theorem ListsExtend.trans (h : ListsExtend s s') (h' : ListsExtend s' s'') : ListsExtend s s'' :=
  ⟨fun n topic => (h.nuzzle n topic).trans (h'.nuzzle n topic),
    fun e topic => (h.engine e topic).trans (h'.engine e topic)⟩

theorem OnlySubscribes.listsExtend_next (hinv : OnlySubscribes s) (h : next s a = some s') :
    ListsExtend s s' := by
  refine ⟨fun n topic => ?_, fun e topic => ?_⟩
  · refine (nuzzleNode_simulates n s a s' h).preserves
      (I := fun node => (s.nuzzle n).subscriptions.get topic <+:
        node.nuzzle.subscriptions.get topic)
      (List.prefix_refl _) fun event hev hnode => ?_
    refine NuzzleNode.subscriptions_prefix_next (fun c memory m heq => ?_) hnode topic
    exact hinv.requests (c, n) m (mem_requests_of_nuzzleEvent (heq ▸ hev))
  · refine (engineNode_simulates e s a s' h).preserves
      (I := fun node => (s.engine e).subscriptions.get topic <+:
        node.engine.subscriptions.get topic)
      (List.prefix_refl _) fun event hev hnode => ?_
    refine EngineNode.subscriptions_prefix_next (fun n m heq => ?_) hnode topic
    exact hinv.updates (n, e) m (of_engineEvent (heq ▸ hev))

/-- A subscribe can always be answered. -/
theorem OnlySubscribes.isSome_next_iff (hinv : OnlySubscribes s)
    (hhandler : a.isHandler = true) : (next s a).isSome = true ↔ Pending s a := by
  refine isSome_next_iff_pending (fun n e m ch hpop => ?_) (fun c n m ch memory hpop => ?_)
    hhandler
  · have hsub := hinv.updates (n, e) m
      (List.mem_append_right _ (List.mem_of_mem_head? (Channel.head?_of_pop? hpop)))
    have hget : (Engine.MsgUpdateSubscriptionReqRx.get m).isSubscribe = true := hsub
    simp [Engine.onUpdateSubscriptionReceive, hget]
  · have hsub := hinv.requests (c, n) m
      (List.mem_append_right _ (List.mem_of_mem_head? (Channel.head?_of_pop? hpop)))
    exact (Nuzzle.onUpdateSubscriptionReceive_isSome_iff _ _ _ _).mpr (Or.inl hsub)

theorem OnlySubscribes.handler (hinv : OnlySubscribes s) (hhandler : a.isHandler = true)
    (h : next s a = some s') : OnlySubscribes s' := by
  refine onlySubscribes_next hinv (fun c request ha => ?_) h
  rw [ha] at hhandler
  simp [Action.isHandler] at hhandler

end State

/-! ## The programs -/

namespace Running

variable {B P E N C : Type}
variable [DecidableEq B] [DecidableEq P] [DecidableEq E] [DecidableEq N] [DecidableEq C]
variable {args : Arguments B P E N C} {groupSize : UInt16} {r r' : Running B P E N C}
variable {moves moves' : List (Running B P E N C × Move B P E N C)} {m : Move B P E N C}

/-- The programs of the consumers ask for subscriptions, and nothing else is under way. -/
structure Standing (r : Running B P E N C) : Prop where
  asks : ∀ c, (r.mains.consumer c).request.action = 1
  subscribes : State.OnlySubscribes r.state

omit [DecidableEq B] [DecidableEq P] [DecidableEq E] [DecidableEq N] [DecidableEq C] in
theorem standing_start : Standing (start args groupSize) where
  asks := fun _ => rfl
  subscribes := State.onlySubscribes_start groupSize

/-- The calls of the programs leave the action of the consumers' requests. -/
theorem action_call {mains mains' : Mains B P E N C} {a : Action B P E N C}
    (h : mains.call args a = some mains') (c : C) :
    (mains'.consumer c).request.action = (mains.consumer c).request.action := by
  cases a with
  | connectToPump | pumpConnectToEngine | nuzzleConnectToEngine | publish =>
      obtain ⟨_, -, rfl⟩ := Option.map_eq_some_iff.mp h
      rfl
  | connectToNuzzle c' n =>
      obtain ⟨main, hmain, rfl⟩ := Option.map_eq_some_iff.mp h
      obtain ⟨_, -, rfl⟩ := Option.map_eq_some_iff.mp hmain
      by_cases hc : c = c'
      · subst hc
        simp
      · simp [hc]
  | updateSubscribtion c' request =>
      obtain ⟨main, hmain, rfl⟩ := Option.map_eq_some_iff.mp h
      simp only [ConsumerMain.subscribe] at hmain
      split at hmain
      · obtain rfl := Option.some.inj hmain
        by_cases hc : c = c'
        · subst hc
          simp
        · simp [hc]
      · simp at hmain
  | pumpOnPublish | pumpOnPrepareAck | engineOnPrepare | engineOnUpdate | nuzzleOnPublish
    | nuzzleOnUpdate | consumerOnPublish =>
      obtain rfl := Option.some.inj h
      rfl

/-- What the program of a consumer asks for is what its request holds. -/
theorem request_call {mains mains' : Mains B P E N C} {c : C}
    {request : RequestUpdateSubscription}
    (h : mains.call args (.updateSubscribtion c request) = some mains') :
    request = (mains.consumer c).request := by
  obtain ⟨main, hmain, -⟩ := Option.map_eq_some_iff.mp h
  simp only [ConsumerMain.subscribe] at hmain
  split at hmain
  · rename_i hguard
    exact hguard.2.2
  · simp at hmain

theorem Standing.next (hinv : Standing r) (h : Running.next args r m = some r') :
    Standing r' := by
  cases m with
  | startOver b =>
      obtain ⟨hstate, hmains⟩ := startOver_next h
      obtain ⟨_, -, hafter⟩ := Option.map_eq_some_iff.mp hmains
      refine ⟨fun c => ?_, hstate ▸ hinv.subscribes⟩
      rw [← hafter]
      exact hinv.asks c
  | call a =>
      obtain ⟨hstate, hmains⟩ := call_next h
      refine ⟨fun c => (action_call hmains c).trans (hinv.asks c), ?_⟩
      refine State.onlySubscribes_next hinv.subscribes (fun c request ha => ?_) hstate
      subst ha
      rw [request_call hmains, RequestUpdateSubscription.isSubscribe, hinv.asks c]
      rfl

theorem standing_run (h : Runs args groupSize moves r) : Standing r :=
  h.keeps standing_start fun _ _ _ hinv hstep => hinv.next hstep

theorem Standing.listsExtend_run (hinv : Standing r)
    (h : Run (Steps (Running.next args)) r moves r') : State.ListsExtend r.state r'.state := by
  have hboth : Standing r' ∧ State.ListsExtend r.state r'.state := by
    refine h.keeps (I := fun r' => Standing r' ∧ State.ListsExtend r.state r'.state)
      ⟨hinv, State.listsExtend_refl _⟩ fun r₁ m r₂ ⟨hstanding, hextend⟩ hstep => ?_
    refine ⟨hstanding.next hstep, hextend.trans ?_⟩
    cases m with
    | startOver b =>
        rw [(startOver_next hstep).1]
        exact State.listsExtend_refl _
    | call a => exact hstanding.subscribes.listsExtend_next (call_next hstep).1
  exact hboth.2

/-- Under the programs no list of a nuzzle or an engine loses an entry, a handler can be called
exactly when a message is waiting for it, and the handlers can bring the system to rest from
every state; whatever order they run in, they do not run for ever and are not stuck before it
is at rest. -/
theorem subscriptions_stand [Fintype B] [Fintype P] [Fintype E] [Fintype N] [Fintype C]
    (h : Runs args groupSize moves r) :
    (∀ moves' r', Run (Steps (Running.next args)) r moves' r' →
      State.ListsExtend r.state r'.state) ∧
    (∀ a, a.isHandler = true → ((r.state.next a).isSome = true ↔ State.Pending r.state a)) ∧
    (∃ rest s', Run (Steps State.next) r.state rest s' ∧ (∀ x ∈ rest, x.2.isHandler = true) ∧
      State.Quiescent s') ∧
    (∀ f : Nat → State B P E N C, f 0 = r.state →
      ¬ ∀ i, ∃ a, a.isHandler = true ∧ State.next (f i) a = some (f (i + 1))) ∧
    ∀ rest s', Run (Steps State.next) r.state rest s' → (∀ x ∈ rest, x.2.isHandler = true) →
      ((∀ a, a.isHandler = true → State.next s' a = none) ↔ State.Quiescent s') := by
  have hstanding := standing_run h
  refine ⟨fun moves' r' => hstanding.listsExtend_run, fun a => hstanding.subscribes.isSome_next_iff,
    ?_⟩
  refine State.drains_of (I := State.OnlySubscribes) (fun _ hhandler => hhandler)
    (fun s hbusy => ?_) (fun _ hinv _ => hinv.isSome_next_iff) (fun _ _ _ => .handler)
    hstanding.subscribes
  obtain ⟨a, ha, hpending⟩ := State.exists_pending (fun _ => 0) hbusy
  exact ⟨a, ha.1, hpending⟩

/-- A consumer with the topics 0 and 1, a nuzzle and an engine. -/
def twoTopics (e : E) (n : N) : Arguments B P E N C where
  pumps := fun _ => []
  topics := fun _ => (0, 0)
  publishMemory := fun _ => default
  pumpEngines := fun _ => []
  nuzzleEngines := fun _ => [e]
  nuzzles := fun _ => [n]
  range := fun _ => (0, 1)
  updateMemory := fun _ => default

/-- What a consumer's program asks for. -/
def asked (topic : UInt64) : RequestUpdateSubscription :=
  { RequestUpdateSubscription.declared default with topicId := topic, action := 1 }

/-- The nuzzle connects to its engine between the two subscribes. -/
def connectedBetween (e : E) (n : N) (c : C) : List (Move B P E N C) :=
  [.call (.connectToNuzzle c n), .call (.updateSubscribtion c (asked 0)),
    .call (.nuzzleOnUpdate c n fun _ => default), .call (.nuzzleConnectToEngine n e),
    .call (.updateSubscribtion c (asked 1))]

theorem subscriptions_stand_connectedBetween :
    ∃ (moves : List (Running (Fin 1) (Fin 1) (Fin 1) (Fin 1) (Fin 1) ×
        Move (Fin 1) (Fin 1) (Fin 1) (Fin 1) (Fin 1)))
      (r : Running (Fin 1) (Fin 1) (Fin 1) (Fin 1) (Fin 1)), Runs (twoTopics 0 0) 1 moves r ∧
        ¬ State.Quiescent r.state ∧ ∃ rest s', Run (Steps State.next) r.state rest s' ∧
          (∀ x ∈ rest, x.2.isHandler = true) ∧ State.Quiescent s' := by
  obtain ⟨moves, r, hrun, hbusy⟩ :=
    exists_run_of_execute (connectedBetween 0 0 0) (Running.next (twoTopics 0 0))
      (start (twoTopics 0 0) 1 : Running (Fin 1) (Fin 1) (Fin 1) (Fin 1) (Fin 1))
      (fun _ r => ¬ State.Quiescent r.state) (by decide +kernel)
  exact ⟨moves, r, hrun, hbusy, (subscriptions_stand hrun).2.2.1⟩

end Running

end Firehose.Cluster
