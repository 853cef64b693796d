import Firehose.Cluster.EngineRun
import Firehose.Cluster.PumpRun

set_option autoImplicit false

/-!
# Where a message comes from

Every message on every channel, and every entry of every buffer, stems from one publish
that a pump has handled, and that publish is one a publisher has sent.  Nothing here
depends on the order of a channel or on a message arriving once, so all of it holds over
a network that loses, repeats and reorders.
-/

namespace Firehose.Cluster

open Firehose.Api Firehose.Foundation Firehose.Node
open Function (update)
open Channel (addressedTo)

namespace State

variable {B P E N C : Type}
variable [DecidableEq B] [DecidableEq P] [DecidableEq E] [DecidableEq N] [DecidableEq C]

/-- The request that a step makes a publisher send. -/
def publishedAt (s : State B P E N C) : Action B P E N C → Option RequestPublish
  | .publish b now request => ((s.publisher b).publish now request).map fun r => r.2.2
  | _ => none

omit [DecidableEq B] [DecidableEq P] [DecidableEq E] [DecidableEq N] [DecidableEq C] in
theorem isPublish_of_publishedAt {s : State B P E N C} {a : Action B P E N C}
    {r : RequestPublish} (h : publishedAt s a = some r) : a.isPublish = true := by
  cases a with
  | publish b now request => rfl
  | _ => simp [publishedAt] at h

omit [DecidableEq B] [DecidableEq P] [DecidableEq E] [DecidableEq N] [DecidableEq C] in
/-- What a publisher sends is the request it was given, with the time on its clock. -/
theorem publishedAt_eq_some {s : State B P E N C} {a : Action B P E N C} {r : RequestPublish}
    (h : publishedAt s a = some r) :
    ∃ b stamp request, a = .publish b stamp request ∧
      r.content = ⟨request.topicId, stamp, request.message⟩ := by
  cases a with
  | publish b now request =>
      obtain ⟨⟨publisher, p, sent⟩, hpublish, rfl⟩ := Option.map_eq_some_iff.mp h
      refine ⟨b, now, request, rfl, ?_⟩
      unfold Publisher.publish at hpublish
      dsimp only at hpublish
      split at hpublish
      · simp at hpublish
      · simp only [Option.some.injEq, Prod.mk.injEq] at hpublish
        obtain ⟨-, -, rfl⟩ := hpublish
        rfl
  | _ => simp [publishedAt] at h

/-! ## What one step adds -/

section Step

variable {s s' : State B P E N C} {a : Action B P E N C}

theorem mem_publishes_next (h : next s a = some s') {b : B} {p : P}
    {m : RequestPublishProto} (hm : m ∈ (s'.publishes (b, p)).sent) :
    m ∈ (s.publishes (b, p)).sent ∨
      ∃ r, publishedAt s a = some r ∧ m = Publisher.MsgPublishReqTx.set r := by
  rcases (clientChannels_next h).1 with hsame | ⟨b', now, request, rfl⟩ | ⟨b', p', memory, rfl⟩
  · rw [hsame] at hm
    exact Or.inl hm
  · obtain ⟨publisher, p', sent, hpub, rfl⟩ := publish_next h
    refine (Channel.mem_sent_post hm).imp_right fun hout => ?_
    rw [List.mem_singleton, Prod.mk.injEq] at hout
    exact ⟨sent, by simp [publishedAt, hpub], hout.2⟩
  · obtain ⟨m', ch, r, hpop, -, rfl⟩ := pumpOnPublish_next h
    exact Or.inl (by simpa only [Channel.sent_update_pop? hpop] using hm)

omit [DecidableEq B] [DecidableEq E] [DecidableEq N] [DecidableEq C] in
/-- A pump handles what a publisher has sent it. -/
theorem handledAt_eq_some {p : P} {x : Handled E} (h : handledAt p s a = some x) :
    x.before = s.pump p ∧ ∃ b, x.publish ∈ (s.publishes (b, p)).sent := by
  cases a with
  | pumpOnPublish b p' memory =>
      simp only [handledAt] at h
      split at h
      · obtain ⟨m, hm, rfl⟩ := Option.map_eq_some_iff.mp h
        exact ⟨rfl, b, List.mem_append_right _ (List.mem_of_head? hm)⟩
      · simp at h
  | _ => simp [handledAt] at h

theorem mem_prepares_next (h : next s a = some s') {p : P} {e : E}
    {m : RequestPrepareProto} (hm : m ∈ (s'.prepares (p, e)).sent) :
    m ∈ (s.prepares (p, e)).sent ∨ ∃ x, handledAt p s a = some x ∧ m = x.prepare := by
  change m ∈ (s'.pumpNode p).prepares e at hm
  change m ∈ (s.pumpNode p).prepares e ∨ _
  rw [handledAt_eq]
  rcases (pumpNode_simulates p s a s' h).cases with ⟨-, hsame⟩ | ⟨event, hev, hnode⟩
  · exact Or.inl (hsame ▸ hm)
  · rw [hev]
    cases event with
    | connect e' =>
        simp only [Steps, PumpNode.next] at hnode
        split at hnode
        · simp at hnode
        · rw [← Option.some.inj hnode] at hm
          exact Or.inl hm
    | publish memory m' =>
        simp only [Steps, PumpNode.next, Option.some.injEq] at hnode
        rw [← hnode, List.mem_append, Channel.mem_addressedTo] at hm
        refine hm.imp_right fun hout => ?_
        have hsent : (e, m) ∈ Handled.sent ⟨s.pump p, memory, m'⟩ := hout
        exact ⟨_, rfl, (Handled.mem_sent.mp hsent).2⟩

omit [DecidableEq B] [DecidableEq C] [DecidableEq P] [DecidableEq N] in
/-- An engine handles what a pump has sent it. -/
theorem mem_sent_of_engineEvent {e : E} {p : P} {ackMemory : ResponsePrepare}
    {publishMemory : RequestPublish} {m : RequestPrepareProto}
    (h : engineEvent e s a = some (.prepare p ackMemory publishMemory m)) :
    m ∈ (s.prepares (p, e)).sent := by
  cases a with
  | engineOnPrepare p' e' ackMemory' publishMemory' =>
      simp only [engineEvent] at h
      split at h
      · obtain ⟨m', hm', heq⟩ := Option.map_eq_some_iff.mp h
        simp only [EngineEvent.prepare.injEq] at heq
        obtain ⟨rfl, -, -, rfl⟩ := heq
        exact List.mem_append_right _ (List.mem_of_head? hm')
      · simp at h
  | engineOnUpdate n e' =>
      simp only [engineEvent] at h
      split at h
      · obtain ⟨m', -, heq⟩ := Option.map_eq_some_iff.mp h
        simp at heq
      · simp at h
  | _ => simp [engineEvent] at h

/-- What an engine buffers and what it sends is what it was sent. -/
theorem mem_fanouts_next (h : next s a = some s') (e : E) :
    (∀ n m, m ∈ (s'.fanouts (e, n)).sent → m ∈ (s.fanouts (e, n)).sent ∨
      ∃ p, ∃ m' ∈ (s.prepares (p, e)).sent, m.key = m'.key ∧ m.content = m'.content) ∧
    (∀ key r, (s'.engine e).messageBuffer.find? key = some r →
      (s.engine e).messageBuffer.find? key = some r ∨
      ∃ p, ∃ m' ∈ (s.prepares (p, e)).sent, key = m'.key ∧ r = m'.get) := by
  change (∀ n m, m ∈ (s'.engineNode e).fanouts n → m ∈ (s.engineNode e).fanouts n ∨ _) ∧
    (∀ key r, (s'.engineNode e).engine.messageBuffer.find? key = some r →
      (s.engineNode e).engine.messageBuffer.find? key = some r ∨ _)
  rcases (engineNode_simulates e s a s' h).cases with ⟨-, hsame⟩ | ⟨event, hev, hnode⟩
  · exact ⟨fun n m hm => Or.inl (hsame ▸ hm), fun key r hr => Or.inl (hsame ▸ hr)⟩
  · cases event with
    | prepare p ackMemory publishMemory m' =>
        have hsent := mem_sent_of_engineEvent hev
        refine ⟨fun n m hm => ?_, fun key r hr => ?_⟩
        · rw [EngineNode.fanouts_next_prepare hnode, List.mem_append] at hm
          refine hm.imp_right fun hnew => ⟨p, m', hsent, ?_⟩
          rw [(List.mem_replicate.mp hnew).2]
          exact ⟨rfl, rfl⟩
        · rw [EngineNode.messageBuffer_next_prepare hnode] at hr
          split at hr
          · rename_i hk
            exact Or.inr ⟨p, m', hsent, hk, (Option.some.inj hr).symm⟩
          · exact Or.inl hr
    | accept | update =>
        obtain ⟨hbuf, -, hfan, -⟩ := EngineNode.messages_next hnode (by simp)
        exact ⟨fun n m hm => Or.inl (hfan ▸ hm), fun key r hr => Or.inl (hbuf ▸ hr)⟩

omit [DecidableEq B] [DecidableEq P] [DecidableEq E] [DecidableEq C] in
/-- A nuzzle handles what an engine has sent it. -/
theorem mem_sent_of_nuzzleEvent {n : N} {e : E} {m : RequestPublishProto}
    (h : nuzzleEvent n s a = some (.publish e m)) : m ∈ (s.fanouts (e, n)).sent := by
  cases a with
  | nuzzleConnectToEngine n' e' =>
      simp only [nuzzleEvent] at h
      split at h <;> simp at h
  | nuzzleOnPublish e' n' =>
      simp only [nuzzleEvent] at h
      split at h
      · obtain ⟨m', hm', heq⟩ := Option.map_eq_some_iff.mp h
        simp only [NuzzleEvent.publish.injEq] at heq
        obtain ⟨rfl, rfl⟩ := heq
        exact List.mem_append_right _ (List.mem_of_head? hm')
      · simp at h
  | nuzzleOnUpdate c n' memory =>
      simp only [nuzzleEvent] at h
      split at h
      · obtain ⟨m', -, heq⟩ := Option.map_eq_some_iff.mp h
        simp at heq
      · simp at h
  | _ => simp [nuzzleEvent] at h

/-- What a nuzzle delivers is what it was sent. -/
theorem mem_deliveries_next (h : next s a = some s') {n : N} {c : C}
    {m : RequestPublishProto} (hm : m ∈ (s'.deliveries (n, c)).sent) :
    m ∈ (s.deliveries (n, c)).sent ∨
      ∃ e, ∃ m' ∈ (s.fanouts (e, n)).sent, m.key = m'.key ∧ m.content = m'.content := by
  change m ∈ (s'.nuzzleNode n).deliveries c at hm
  change m ∈ (s.nuzzleNode n).deliveries c ∨ _
  rcases (nuzzleNode_simulates n s a s' h).cases with ⟨-, hsame⟩ | ⟨event, hev, hnode⟩
  · exact Or.inl (hsame ▸ hm)
  · cases event with
    | publish e m' =>
        have hsent := mem_sent_of_nuzzleEvent hev
        simp only [Steps, NuzzleNode.next, Option.some.injEq] at hnode
        rw [← hnode, List.mem_append, Channel.mem_addressedTo] at hm
        refine hm.imp_right fun hout => ⟨e, m', hsent, ?_⟩
        obtain ⟨o, ho, heq⟩ := List.mem_map.mp hout
        rw [Prod.mk.injEq] at heq
        rw [← heq.2, Nuzzle.eq_of_mem_onPublishReceive ho]
        exact ⟨RequestPublish.key_set m'.get, RequestPublish.content_set m'.get⟩
    | connect | update =>
        obtain ⟨-, hdel, -, -⟩ := NuzzleNode.fanouts_deliveries_next hnode (by simp)
        exact Or.inl (hdel ▸ hm)

end Step

/-! ## The origin of every message -/

/-- Everything in the system stems from the requests published and the publishes handled. -/
structure Genuine (published : RequestPublish → Prop) (handled : P → Handled E → Prop)
    (s : State B P E N C) : Prop where
  publishes : ∀ b p, ∀ m ∈ (s.publishes (b, p)).sent,
    ∃ r, published r ∧ m = Publisher.MsgPublishReqTx.set r
  sources : ∀ p x, handled p x → ∃ r, published r ∧ x.publish = Publisher.MsgPublishReqTx.set r
  prepares : ∀ p e, ∀ m ∈ (s.prepares (p, e)).sent, ∃ x, handled p x ∧ m = x.prepare
  buffers : ∀ e key r, (s.engine e).messageBuffer.find? key = some r →
    ∃ p x, handled p x ∧ key = x.key ∧ r = x.prepare.get
  fanouts : ∀ e n, ∀ m ∈ (s.fanouts (e, n)).sent,
    ∃ p x, handled p x ∧ m.key = x.key ∧ m.content = x.publish.content
  deliveries : ∀ n c, ∀ m ∈ (s.deliveries (n, c)).sent,
    ∃ p x, handled p x ∧ m.key = x.key ∧ m.content = x.publish.content

omit [DecidableEq B] [DecidableEq P] [DecidableEq E] [DecidableEq N] [DecidableEq C] in
theorem genuine_start (groupSize : UInt16) :
    Genuine (fun _ => False) (fun _ _ => False) (start groupSize : State B P E N C) := by
  constructor <;> simp [start, Engine.new]

/-- A step keeps every message and every entry genuine, with what it publishes and what it
handles added to the sources. -/
theorem genuine_next {published published' : RequestPublish → Prop}
    {handled handled' : P → Handled E → Prop} {s s' : State B P E N C}
    {a : Action B P E N C} (hinv : Genuine published handled s) (h : next s a = some s')
    (hpub : ∀ r, published r ∨ publishedAt s a = some r → published' r)
    (hhandled : ∀ p x, handled' p x ↔ handled p x ∨ handledAt p s a = some x) :
    Genuine published' handled' s' := by
  have hold : ∀ p x, handled p x → handled' p x := fun p x hx => (hhandled p x).mpr (Or.inl hx)
  constructor
  · intro b p m hm
    rcases mem_publishes_next h hm with hbefore | ⟨r, hr, rfl⟩
    · obtain ⟨r, hr, rfl⟩ := hinv.publishes b p m hbefore
      exact ⟨r, hpub r (Or.inl hr), rfl⟩
    · exact ⟨r, hpub r (Or.inr hr), rfl⟩
  · intro p x hx
    rcases (hhandled p x).mp hx with hbefore | hnow
    · obtain ⟨r, hr, heq⟩ := hinv.sources p x hbefore
      exact ⟨r, hpub r (Or.inl hr), heq⟩
    · obtain ⟨-, b, hsent⟩ := handledAt_eq_some hnow
      obtain ⟨r, hr, heq⟩ := hinv.publishes b p x.publish hsent
      exact ⟨r, hpub r (Or.inl hr), heq⟩
  · intro p e m hm
    rcases mem_prepares_next h hm with hbefore | ⟨x, hx, rfl⟩
    · obtain ⟨x, hx, rfl⟩ := hinv.prepares p e m hbefore
      exact ⟨x, hold p x hx, rfl⟩
    · exact ⟨x, (hhandled p x).mpr (Or.inr hx), rfl⟩
  · intro e key r hr
    rcases (mem_fanouts_next h e).2 key r hr with hbefore | ⟨p, m, hm, rfl, rfl⟩
    · obtain ⟨p, x, hx, heq⟩ := hinv.buffers e key r hbefore
      exact ⟨p, x, hold p x hx, heq⟩
    · obtain ⟨x, hx, rfl⟩ := hinv.prepares p e m hm
      exact ⟨p, x, hold p x hx, rfl, rfl⟩
  · intro e n m hm
    rcases (mem_fanouts_next h e).1 n m hm with hbefore | ⟨p, m', hm', hkey, hcontent⟩
    · obtain ⟨p, x, hx, heq⟩ := hinv.fanouts e n m hbefore
      exact ⟨p, x, hold p x hx, heq⟩
    · obtain ⟨x, hx, rfl⟩ := hinv.prepares p e m' hm'
      exact ⟨p, x, hold p x hx, hkey, hcontent⟩
  · intro n c m hm
    rcases mem_deliveries_next h hm with hbefore | ⟨e, m', hm', hkey, hcontent⟩
    · obtain ⟨p, x, hx, heq⟩ := hinv.deliveries n c m hbefore
      exact ⟨p, x, hold p x hx, heq⟩
    · obtain ⟨p, x, hx, hkey', hcontent'⟩ := hinv.fanouts e n m' hm'
      exact ⟨p, x, hold p x hx, hkey.trans hkey', hcontent.trans hcontent'⟩

/-! ## A faulty network -/

/-- The network has lost, repeated or reordered messages; the parties are as they were. -/
structure Disturbed (s s' : State B P E N C) : Prop where
  publisher : s'.publisher = s.publisher
  pump : s'.pump = s.pump
  engine : s'.engine = s.engine
  nuzzle : s'.nuzzle = s.nuzzle
  consumer : s'.consumer = s.consumer
  publishes : ∀ link, (s.publishes link).Disturbed (s'.publishes link)
  prepares : ∀ link, (s.prepares link).Disturbed (s'.prepares link)
  acks : ∀ link, (s.acks link).Disturbed (s'.acks link)
  updates : ∀ link, (s.updates link).Disturbed (s'.updates link)
  fanouts : ∀ link, (s.fanouts link).Disturbed (s'.fanouts link)
  requests : ∀ link, (s.requests link).Disturbed (s'.requests link)
  deliveries : ∀ link, (s.deliveries link).Disturbed (s'.deliveries link)

omit [DecidableEq B] [DecidableEq P] [DecidableEq E] [DecidableEq N] [DecidableEq C] in
theorem Genuine.disturbed {published : RequestPublish → Prop}
    {handled : P → Handled E → Prop} {s s' : State B P E N C}
    (hinv : Genuine published handled s) (h : Disturbed s s') :
    Genuine published handled s' where
  publishes := fun b p m hm => hinv.publishes b p m ((h.publishes (b, p)).mem_sent hm)
  sources := hinv.sources
  prepares := fun p e m hm => hinv.prepares p e m ((h.prepares (p, e)).mem_sent hm)
  buffers := fun e key r hr => hinv.buffers e key r (h.engine ▸ hr)
  fanouts := fun e n m hm => hinv.fanouts e n m ((h.fanouts (e, n)).mem_sent hm)
  deliveries := fun n c m hm => hinv.deliveries n c m ((h.deliveries (n, c)).mem_sent hm)

/-- A step over a faulty network: an action of a party, or a disturbance. -/
inductive FaultyStep : State B P E N C → Option (Action B P E N C) → State B P E N C → Prop
  | act {s s' : State B P E N C} {a : Action B P E N C} (h : next s a = some s') :
      FaultyStep s (some a) s'
  | disturb {s s' : State B P E N C} (h : Disturbed s s') : FaultyStep s none s'

/-- The steps of a run over a faulty network. -/
abbrev FaultyTrace (B P E N C : Type) := List (State B P E N C × Option (Action B P E N C))

/-- The runs of the system from its start, over a faulty network. -/
abbrev FaultyRuns (groupSize : UInt16) (trace : FaultyTrace B P E N C)
    (s : State B P E N C) : Prop :=
  Run FaultyStep (start groupSize) trace s

/-- The requests that publishers have sent. -/
def published (trace : FaultyTrace B P E N C) : List RequestPublish :=
  trace.filterMap fun x => x.2.bind (publishedAt x.1)

/-- The publishes that a pump has handled over a faulty network. -/
def handledIn (p : P) (trace : FaultyTrace B P E N C) : List (Handled E) :=
  trace.filterMap fun x => x.2.bind (handledAt p x.1)

variable {groupSize : UInt16} {s : State B P E N C}

theorem genuine_run {trace : FaultyTrace B P E N C} (h : FaultyRuns groupSize trace s) :
    Genuine (· ∈ published trace) (fun p x => x ∈ handledIn p trace) s := by
  refine h.history_keeps
    (I := fun trace s => Genuine (· ∈ published trace) (fun p x => x ∈ handledIn p trace) s) ?_ ?_
  · simpa [published, handledIn] using genuine_start groupSize
  · intro trace s a s' hinv hstep
    cases hstep with
    | act hnext =>
        refine genuine_next hinv hnext (fun r hr => ?_) fun p x => ?_
        · simpa [published, List.filterMap_append] using hr
        · simp [handledIn, List.filterMap_append]
    | disturb hdist =>
        simpa [published, handledIn, List.filterMap_append] using hinv.disturbed hdist

/-- A run over lossless channels is one over a faulty network that does nothing. -/
theorem Runs.faulty {trace : Trace B P E N C} (h : Runs groupSize trace s) :
    FaultyRuns groupSize (trace.map fun x => (x.1, some x.2)) s :=
  h.relabel some fun _ _ _ hstep => .act hstep

/-- Over lossless channels as well everything stems from the publishes handled. -/
theorem Runs.genuine {trace : Trace B P E N C} (h : Runs groupSize trace s) :
    Genuine (· ∈ published (trace.map fun x => (x.1, some x.2)))
      (fun p x => x ∈ handledBy p trace) s := by
  have hinv := genuine_run h.faulty
  simpa only [handledIn, handledBy, List.filterMap_map, Function.comp_def,
    Option.bind_some] using hinv

/-- With all connections made before the first publish, a pump that handles a publish is
connected to every engine. -/
theorem ConnectedFirst.allConnected {trace : Trace B P E N C} (hconn : ConnectedFirst trace)
    (h : Runs groupSize trace s) (p : P) : AllConnected p trace := by
  intro x hx e
  obtain ⟨y, hy, hhandled⟩ := List.mem_filterMap.mp hx
  obtain ⟨t₁, t₂, s', rfl, hbefore, -, -⟩ := h.around hy
  -- the request was published in an earlier step, with every engine connected
  obtain ⟨hcurrent, b, hsent⟩ := handledAt_eq_some hhandled
  obtain ⟨r, hr, -⟩ := (Runs.genuine hbefore).publishes b p x.publish hsent
  obtain ⟨w, hw, hpublished⟩ := List.mem_filterMap.mp hr
  obtain ⟨z, hz, rfl⟩ := List.mem_map.mp hw
  have hthen : e ∈ (z.1.pump p).engineConnections :=
    (hconn z (List.mem_append_left _ hz) (isPublish_of_publishedAt hpublished)).1 p e
  obtain ⟨u₁, u₂, s'', -, -, hstep, hafter⟩ := hbefore.around hz
  have hnow : e ∈ (y.1.pump p).engineConnections := by
    refine ((Run.single hstep).trans hafter).keeps
      (I := fun s => e ∈ (s.pump p).engineConnections) hthen ?_
    intro s a s' hmem hstep
    exact (pumpNode_simulates p s a s' hstep).preserves
      (I := fun node => e ∈ node.pump.engineConnections) hmem
      fun _ _ hnode => PumpNode.engineConnections_next hmem hnode
  rwa [hcurrent]

/-! ## What reaches a consumer -/

/-- The request that a step hands to `Consumer::on_publish_receive`. -/
def consumedAt (c : C) (s : State B P E N C) : Action B P E N C → Option RequestPublish
  | .consumerOnPublish n c' _ _ =>
      if c' = c then (s.deliveries (n, c)).queue.head?.map Consumer.MsgPublishReqRx.get else none
  | _ => none

omit [DecidableEq B] [DecidableEq P] [DecidableEq E] [DecidableEq N] in
theorem consumedAt_eq_some {c : C} {s : State B P E N C} {a : Action B P E N C}
    {request : RequestPublish} (h : consumedAt c s a = some request) :
    ∃ n m, (s.deliveries (n, c)).queue.head? = some m ∧ request = m.get := by
  cases a with
  | consumerOnPublish n c' now now' =>
      simp only [consumedAt] at h
      split at h
      · obtain ⟨m, hm, rfl⟩ := Option.map_eq_some_iff.mp h
        exact ⟨n, m, hm, rfl⟩
      · simp at h
  | _ => simp [consumedAt] at h

/-- Key and content are those of one request that a publisher sent: its topic, timestamp
and bytes, under the identifier that a pump gave to that very publish. -/
def Stems (trace : FaultyTrace B P E N C) (key : Key) (content : Content) : Prop :=
  ∃ r ∈ published trace, ∃ p, ∃ x ∈ handledIn p trace,
    x.publish = Publisher.MsgPublishReqTx.set r ∧ key = x.key ∧ content = r.content

omit [DecidableEq B] [DecidableEq E] [DecidableEq N] [DecidableEq C] in
theorem Genuine.stems {trace : FaultyTrace B P E N C}
    (hinv : Genuine (· ∈ published trace) (fun p x => x ∈ handledIn p trace) s) {p : P}
    {x : Handled E} (hx : x ∈ handledIn p trace) {key : Key} {content : Content}
    (hkey : key = x.key) (hcontent : content = x.publish.content) :
    Stems trace key content := by
  obtain ⟨r, hr, hpublish⟩ := hinv.sources p x hx
  exact ⟨r, hr, p, x, hx, hpublish, hkey, by rw [hcontent, hpublish]; rfl⟩

/-- Every message between the servers and every entry of an engine's buffer stems from one
publish. -/
structure Intact (trace : FaultyTrace B P E N C) (s : State B P E N C) : Prop where
  prepares : ∀ p e, ∀ m ∈ (s.prepares (p, e)).sent, Stems trace m.key m.content
  buffers : ∀ e key r, (s.engine e).messageBuffer.find? key = some r →
    Stems trace key r.content
  fanouts : ∀ e n, ∀ m ∈ (s.fanouts (e, n)).sent, Stems trace m.key m.content
  deliveries : ∀ n c, ∀ m ∈ (s.deliveries (n, c)).sent, Stems trace m.key m.content

theorem intact_run {trace : FaultyTrace B P E N C} (h : FaultyRuns groupSize trace s) :
    Intact trace s := by
  have hinv := genuine_run h
  refine ⟨fun p e m hm => ?_, fun e key r hr => ?_, fun e n m hm => ?_, fun n c m hm => ?_⟩
  · obtain ⟨x, hx, rfl⟩ := hinv.prepares p e m hm
    exact hinv.stems hx rfl rfl
  · obtain ⟨p, x, hx, hkey, rfl⟩ := hinv.buffers e key r hr
    exact hinv.stems hx hkey rfl
  · obtain ⟨p, x, hx, hkey, hcontent⟩ := hinv.fanouts e n m hm
    exact hinv.stems hx hkey hcontent
  · obtain ⟨p, x, hx, hkey, hcontent⟩ := hinv.deliveries n c m hm
    exact hinv.stems hx hkey hcontent

/-- Over a network that may lose, repeat and reorder, no message is mixed from two or made
up, and whatever reaches a consumer stems from one publish that was handled before. -/
theorem consumed_integrity {trace : FaultyTrace B P E N C} (h : FaultyRuns groupSize trace s) :
    Intact trace s ∧ ∀ t₁ s₁ a t₂ c request, trace = t₁ ++ (s₁, some a) :: t₂ →
      consumedAt c s₁ a = some request →
      Stems t₁ request.key request.content := by
  refine ⟨intact_run h, ?_⟩
  rintro t₁ s₁ a t₂ c request rfl hconsumed
  have hcut : t₁ ++ (s₁, some a) :: t₂ = (t₁ ++ [(s₁, some a)]) ++ t₂ := by simp
  rw [hcut] at h
  obtain ⟨s', hrun, -⟩ := h.split
  obtain ⟨n, m, hm, rfl⟩ := consumedAt_eq_some hconsumed
  exact (intact_run hrun.unsnoc.1).deliveries n c m
    (List.mem_append_right _ (List.mem_of_head? hm))

/-- One message on its way through one server of each kind. -/
def oneDelivery (b : B) (p : P) (e : E) (n : N) (c : C) : List (Action B P E N C) :=
  [.pumpConnectToEngine p e, .nuzzleConnectToEngine n e, .connectToPump b p,
    .connectToNuzzle c n, .updateSubscribtion c (.on 7 1),
    .nuzzleOnUpdate c n (fun _ => default), .engineOnUpdate n e, .publish b 5 (.on 7 [1]),
    .pumpOnPublish b p default, .engineOnPrepare p e default default, .nuzzleOnPublish e n]

theorem consumed_integrity_oneDelivery :
    ∃ (t : FaultyTrace (Fin 1) (Fin 1) (Fin 1) (Fin 1) (Fin 1))
      (s₁ s : State (Fin 1) (Fin 1) (Fin 1) (Fin 1) (Fin 1)) (request : RequestPublish),
      FaultyRuns 1 (t ++ [(s₁, some (.consumerOnPublish 0 0 6 6))]) s ∧
      request.message = [1] ∧
      Stems t request.key request.content := by
  obtain ⟨trace, s₁, hrun, hnext, hmessage⟩ :=
    exists_run_of_execute (oneDelivery 0 0 0 0 0) next
      (start 1 : State (Fin 1) (Fin 1) (Fin 1) (Fin 1) (Fin 1))
      (fun _ s => (next s (.consumerOnPublish 0 0 6 6)).isSome = true ∧
        (consumedAt 0 s (.consumerOnPublish 0 0 6 6)).map (·.message) = some [1])
      (by decide +kernel)
  obtain ⟨s, hs⟩ := Option.isSome_iff_exists.mp hnext
  obtain ⟨request, hrequest, hone⟩ := Option.map_eq_some_iff.mp hmessage
  have hfaulty := Run.snoc (Runs.faulty hrun) (.act hs)
  exact ⟨_, s₁, s, request, hfaulty, hone,
    (consumed_integrity hfaulty).2 _ s₁ _ [] 0 request rfl hrequest⟩

end State

end Firehose.Cluster
