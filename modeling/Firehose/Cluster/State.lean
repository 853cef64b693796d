import Firehose.Foundation.Channel
import Firehose.Foundation.Run
import Firehose.Node.Client
import Firehose.Node.Engine
import Firehose.Node.Nuzzle
import Firehose.Node.Pump
import Mathlib.Data.Fintype.Prod

set_option autoImplicit false

/-!
# The whole system

Any number of publishers `B`, pumps `P`, engines `E`, nuzzles `N` and consumers `C`,
and a channel in each direction of each connection.  A connection is identified by
its two ends, so a pump or a nuzzle connects to an engine once.

One step is one call of a handler of the source, or one call a client or a server
makes on its own.  A handler that receives a message takes it off the front of its
channel, decodes it with the `get` of the receiving class, and encodes every message
it sends with the `set` of the sending class.
-/

namespace Firehose.Cluster

open Firehose.Api Firehose.Foundation Firehose.Node
open Function (update)

/-- The state of every party and of every channel. -/
structure State (B P E N C : Type) where
  publisher : B → Publisher P
  pump : P → Pump E
  engine : E → Engine N
  nuzzle : N → Nuzzle E C
  consumer : C → Consumer N
  /-- From publishers to pumps. -/
  publishes : B × P → Channel RequestPublishProto
  /-- From pumps to engines. -/
  prepares : P × E → Channel RequestPrepareProto
  /-- From engines back to pumps. -/
  acks : E × P → Channel ResponsePrepareProto
  /-- From nuzzles to engines. -/
  updates : N × E → Channel RequestUpdateSubscriptionProto
  /-- From engines to nuzzles. -/
  fanouts : E × N → Channel RequestPublishProto
  /-- From consumers to nuzzles. -/
  requests : C × N → Channel RequestUpdateSubscriptionProto
  /-- From nuzzles to consumers. -/
  deliveries : N × C → Channel RequestPublishProto

/-- What a step does, with every value that the environment chooses: which party acts,
the clock, the request of a client, and what was in memory where a handler declares a
local struct. -/
inductive Action (B P E N C : Type)
  /-- `Publisher::connect_to_pump` -/
  | connectToPump (b : B) (p : P)
  /-- `Pump::connect_to_engine` -/
  | pumpConnectToEngine (p : P) (e : E)
  /-- `Nuzzle::connect_to_engine` -/
  | nuzzleConnectToEngine (n : N) (e : E)
  /-- `Consumer::connect_to_nuzzle` -/
  | connectToNuzzle (c : C) (n : N)
  /-- `Publisher::publish` -/
  | publish (b : B) (now : UInt64) (request : RequestPublish)
  /-- `Consumer::update_subscribtion` -/
  | updateSubscribtion (c : C) (request : RequestUpdateSubscription)
  /-- `Pump::on_publish_receive` -/
  | pumpOnPublish (b : B) (p : P) (memory : RequestPrepare)
  /-- `Pump::on_prepare_ack_receive` -/
  | pumpOnPrepareAck (e : E) (p : P)
  /-- `Engine::on_prepare_receive` -/
  | engineOnPrepare (p : P) (e : E) (ackMemory : ResponsePrepare)
      (publishMemory : RequestPublish)
  /-- `Engine::on_update_subscription_receive` -/
  | engineOnUpdate (n : N) (e : E)
  /-- `Nuzzle::on_publish_receive` -/
  | nuzzleOnPublish (e : E) (n : N)
  /-- `Nuzzle::on_update_subscription_receive` -/
  | nuzzleOnUpdate (c : C) (n : N) (memory : E → RequestUpdateSubscription)
  /-- `Consumer::on_publish_receive` -/
  | consumerOnPublish (n : N) (c : C) (now now' : UInt64)

/-- Whether a step is a call of `Publisher::publish`. -/
def Action.isPublish {B P E N C : Type} : Action B P E N C → Bool
  | .publish .. => true
  | _ => false

/-- The local structs whose client identifiers a nuzzle's step forwards. -/
def Action.forwarded {B P E N C : Type} :
    Action B P E N C → Option (N × (E → RequestUpdateSubscription))
  | .nuzzleOnUpdate _ n memory => some (n, memory)
  | _ => none

/-- The steps of a run of the system, each with the state it was taken in. -/
abbrev Trace (B P E N C : Type) := List (State B P E N C × Action B P E N C)

namespace State

variable {B P E N C : Type}

/-- Every party just constructed, nothing connected, nothing sent. -/
def start (groupSize : UInt16) : State B P E N C where
  publisher := fun _ => .new
  pump := fun _ => .new
  engine := fun _ => .new
  nuzzle := fun _ => .new groupSize
  consumer := fun _ => .new
  publishes := fun _ => .empty
  prepares := fun _ => .empty
  acks := fun _ => .empty
  updates := fun _ => .empty
  fanouts := fun _ => .empty
  requests := fun _ => .empty
  deliveries := fun _ => .empty

/-- No message is in flight. -/
def Quiescent (s : State B P E N C) : Prop :=
  (∀ link, (s.publishes link).queue = []) ∧ (∀ link, (s.prepares link).queue = []) ∧
  (∀ link, (s.acks link).queue = []) ∧ (∀ link, (s.updates link).queue = []) ∧
  (∀ link, (s.fanouts link).queue = []) ∧ (∀ link, (s.requests link).queue = []) ∧
  (∀ link, (s.deliveries link).queue = [])

/-- Every pump and every nuzzle is connected to every engine. -/
def Connected (s : State B P E N C) : Prop :=
  (∀ p e, e ∈ (s.pump p).engineConnections) ∧ (∀ n e, e ∈ (s.nuzzle n).engineConnections)

/-- All connections between servers are made before the first publish. -/
def ConnectedFirst (trace : Trace B P E N C) : Prop :=
  ∀ x ∈ trace, x.2.isPublish = true → Connected x.1

/-- Each nuzzle forwards one client identifier all along. -/
def FixedClientId (id : N → Int32) (trace : Trace B P E N C) : Prop :=
  ∀ x ∈ trace, ∀ f ∈ x.2.forwarded, ∀ e, (f.2 e).header.senderId = id f.1

instance [Fintype E] (id : N → Int32) (trace : Trace B P E N C) :
    Decidable (FixedClientId id trace) :=
  inferInstanceAs
    (Decidable (∀ x ∈ trace, ∀ f ∈ x.2.forwarded, ∀ e, (f.2 e).header.senderId = id f.1))

section Decidable

variable [Fintype P] [Fintype E] [Fintype N] [DecidableEq E]

instance (s : State B P E N C) : Decidable (Connected s) :=
  inferInstanceAs (Decidable ((∀ p e, e ∈ (s.pump p).engineConnections) ∧
    ∀ n e, e ∈ (s.nuzzle n).engineConnections))

instance (trace : Trace B P E N C) : Decidable (ConnectedFirst trace) :=
  inferInstanceAs (Decidable (∀ x ∈ trace, x.2.isPublish = true → Connected x.1))

instance [Fintype B] [Fintype C] (s : State B P E N C) : Decidable (Quiescent s) :=
  inferInstanceAs (Decidable
    ((∀ link, (s.publishes link).queue = []) ∧ (∀ link, (s.prepares link).queue = []) ∧
    (∀ link, (s.acks link).queue = []) ∧ (∀ link, (s.updates link).queue = []) ∧
    (∀ link, (s.fanouts link).queue = []) ∧ (∀ link, (s.requests link).queue = []) ∧
    (∀ link, (s.deliveries link).queue = [])))

end Decidable

variable [DecidableEq B] [DecidableEq P] [DecidableEq E] [DecidableEq N] [DecidableEq C]

/-- One step.  There is none when the channel is empty, when a server connects twice to
one peer, and where the source's behaviour is undefined. -/
def next (s : State B P E N C) : Action B P E N C → Option (State B P E N C)
  | .connectToPump b p =>
      some { s with publisher := update s.publisher b ((s.publisher b).connectToPump p) }
  | .pumpConnectToEngine p e =>
      if e ∈ (s.pump p).engineConnections then none
      else some { s with pump := update s.pump p ((s.pump p).connectToEngine e) }
  | .nuzzleConnectToEngine n e =>
      if e ∈ (s.nuzzle n).engineConnections then none
      else some { s with nuzzle := update s.nuzzle n ((s.nuzzle n).connectToEngine e) }
  | .connectToNuzzle c n =>
      some { s with consumer := update s.consumer c ((s.consumer c).connectToNuzzle n) }
  | .publish b now request =>
      match (s.publisher b).publish now request with
      | none => none
      | some (publisher, p, sent) =>
          some { s with
            publisher := update s.publisher b publisher
            publishes := Channel.post s.publishes b [(p, Publisher.MsgPublishReqTx.set sent)] }
  | .updateSubscribtion c request =>
      match (s.consumer c).updateSubscribtion request with
      | none => none
      | some (n, sent) =>
          some { s with
            requests :=
              Channel.post s.requests c [(n, Consumer.MsgUpdateSubscriptionReqTx.set sent)] }
  | .pumpOnPublish b p memory =>
      match (s.publishes (b, p)).pop? with
      | none => none
      | some (m, ch) =>
          let r := (s.pump p).onPublishReceive memory (Pump.MsgPublishReqRx.get m)
          some { s with
            pump := update s.pump p r.1
            publishes := update s.publishes (b, p) ch
            prepares := Channel.post s.prepares p
              (r.2.map fun o => (o.1, Pump.MsgPrepareReqTx.set o.2)) }
  | .pumpOnPrepareAck e p =>
      match (s.acks (e, p)).pop? with
      | none => none
      | some (m, ch) =>
          some { s with
            pump :=
              update s.pump p ((s.pump p).onPrepareAckReceive (Pump.MsgPrepareRspRx.get m))
            acks := update s.acks (e, p) ch }
  | .engineOnPrepare p e ackMemory publishMemory =>
      match (s.prepares (p, e)).pop? with
      | none => none
      | some (m, ch) =>
          let r := (s.engine e).onPrepareReceive ackMemory publishMemory p
            (Engine.MsgPrepareReqRx.get m)
          some { s with
            engine := update s.engine e r.1
            prepares := update s.prepares (p, e) ch
            acks := Channel.post s.acks e
              (r.2.1.map fun o => (o.1, Engine.MsgPrepareRspTx.set o.2))
            fanouts := Channel.post s.fanouts e
              (r.2.2.map fun o => (o.1, Engine.MsgPublishReqTx.set o.2)) }
  | .engineOnUpdate n e =>
      match (s.updates (n, e)).pop? with
      | none => none
      | some (m, ch) =>
          match (s.engine e).onUpdateSubscriptionReceive n
              (Engine.MsgUpdateSubscriptionReqRx.get m) with
          | none => none
          | some engine =>
              some { s with
                engine := update s.engine e engine
                updates := update s.updates (n, e) ch }
  | .nuzzleOnPublish e n =>
      match (s.fanouts (e, n)).pop? with
      | none => none
      | some (m, ch) =>
          let r := (s.nuzzle n).onPublishReceive e (Nuzzle.MsgPublishReqRx.get m)
          some { s with
            nuzzle := update s.nuzzle n r.1
            fanouts := update s.fanouts (e, n) ch
            deliveries := Channel.post s.deliveries n
              (r.2.map fun o => (o.1, Nuzzle.MsgPublishReqTx.set o.2)) }
  | .nuzzleOnUpdate c n memory =>
      match (s.requests (c, n)).pop? with
      | none => none
      | some (m, ch) =>
          match (s.nuzzle n).onUpdateSubscriptionReceive memory c
              (Nuzzle.MsgUpdateSubscriptionReqRx.get m) with
          | none => none
          | some (nuzzle, out) =>
              some { s with
                nuzzle := update s.nuzzle n nuzzle
                requests := update s.requests (c, n) ch
                updates := Channel.post s.updates n
                  (out.map fun o => (o.1, Nuzzle.MsgUpdateSubscriptionReqTx.set o.2)) }
  | .consumerOnPublish n c now now' =>
      match (s.deliveries (n, c)).pop? with
      | none => none
      | some (m, ch) =>
          some { s with
            consumer := update s.consumer c
              ((s.consumer c).onPublishReceive now now' (Consumer.MsgPublishReqRx.get m))
            deliveries := update s.deliveries (n, c) ch }

/-! ## What each step does -/

section Inversion

variable {s s' : State B P E N C}

theorem connectToPump_next {b : B} {p : P} (h : next s (.connectToPump b p) = some s') :
    s' = { s with publisher := update s.publisher b ((s.publisher b).connectToPump p) } :=
  (Option.some.inj h).symm

theorem pumpConnectToEngine_next {p : P} {e : E}
    (h : next s (.pumpConnectToEngine p e) = some s') :
    e ∉ (s.pump p).engineConnections ∧
      s' = { s with pump := update s.pump p ((s.pump p).connectToEngine e) } := by
  simp only [next] at h
  split at h
  · simp at h
  · rename_i hfresh
    exact ⟨hfresh, (Option.some.inj h).symm⟩

theorem nuzzleConnectToEngine_next {n : N} {e : E}
    (h : next s (.nuzzleConnectToEngine n e) = some s') :
    e ∉ (s.nuzzle n).engineConnections ∧
      s' = { s with nuzzle := update s.nuzzle n ((s.nuzzle n).connectToEngine e) } := by
  simp only [next] at h
  split at h
  · simp at h
  · rename_i hfresh
    exact ⟨hfresh, (Option.some.inj h).symm⟩

theorem connectToNuzzle_next {c : C} {n : N} (h : next s (.connectToNuzzle c n) = some s') :
    s' = { s with consumer := update s.consumer c ((s.consumer c).connectToNuzzle n) } :=
  (Option.some.inj h).symm

theorem publish_next {b : B} {now : UInt64} {request : RequestPublish}
    (h : next s (.publish b now request) = some s') :
    ∃ publisher p sent, (s.publisher b).publish now request = some (publisher, p, sent) ∧
      s' = { s with
        publisher := update s.publisher b publisher
        publishes := Channel.post s.publishes b [(p, Publisher.MsgPublishReqTx.set sent)] } := by
  simp only [next] at h
  split at h
  · simp at h
  · rename_i publisher p sent hpub
    exact ⟨publisher, p, sent, hpub, (Option.some.inj h).symm⟩

theorem updateSubscribtion_next {c : C} {request : RequestUpdateSubscription}
    (h : next s (.updateSubscribtion c request) = some s') :
    ∃ n sent, (s.consumer c).updateSubscribtion request = some (n, sent) ∧
      s' = { s with
        requests :=
          Channel.post s.requests c [(n, Consumer.MsgUpdateSubscriptionReqTx.set sent)] } := by
  simp only [next] at h
  split at h
  · simp at h
  · rename_i n sent hupdate
    exact ⟨n, sent, hupdate, (Option.some.inj h).symm⟩

theorem pumpOnPublish_next {b : B} {p : P} {memory : RequestPrepare}
    (h : next s (.pumpOnPublish b p memory) = some s') :
    ∃ m ch r, (s.publishes (b, p)).pop? = some (m, ch) ∧
      r = (s.pump p).onPublishReceive memory (Pump.MsgPublishReqRx.get m) ∧
      s' = { s with
        pump := update s.pump p r.1
        publishes := update s.publishes (b, p) ch
        prepares := Channel.post s.prepares p
          (r.2.map fun o => (o.1, Pump.MsgPrepareReqTx.set o.2)) } := by
  simp only [next] at h
  split at h
  · simp at h
  · rename_i m ch hpop
    exact ⟨m, ch, _, hpop, rfl, (Option.some.inj h).symm⟩

theorem pumpOnPrepareAck_next {e : E} {p : P} (h : next s (.pumpOnPrepareAck e p) = some s') :
    ∃ m ch, (s.acks (e, p)).pop? = some (m, ch) ∧ s' = { s with
      pump := update s.pump p ((s.pump p).onPrepareAckReceive (Pump.MsgPrepareRspRx.get m))
      acks := update s.acks (e, p) ch } := by
  simp only [next] at h
  split at h
  · simp at h
  · rename_i m ch hpop
    exact ⟨m, ch, hpop, (Option.some.inj h).symm⟩

theorem engineOnPrepare_next {p : P} {e : E} {ackMemory : ResponsePrepare}
    {publishMemory : RequestPublish}
    (h : next s (.engineOnPrepare p e ackMemory publishMemory) = some s') :
    ∃ m ch r, (s.prepares (p, e)).pop? = some (m, ch) ∧
      r = (s.engine e).onPrepareReceive ackMemory publishMemory p
        (Engine.MsgPrepareReqRx.get m) ∧
      s' = { s with
        engine := update s.engine e r.1
        prepares := update s.prepares (p, e) ch
        acks := Channel.post s.acks e
          (r.2.1.map fun o => (o.1, Engine.MsgPrepareRspTx.set o.2))
        fanouts := Channel.post s.fanouts e
          (r.2.2.map fun o => (o.1, Engine.MsgPublishReqTx.set o.2)) } := by
  simp only [next] at h
  split at h
  · simp at h
  · rename_i m ch hpop
    exact ⟨m, ch, _, hpop, rfl, (Option.some.inj h).symm⟩

theorem engineOnUpdate_next {n : N} {e : E} (h : next s (.engineOnUpdate n e) = some s') :
    ∃ m ch engine, (s.updates (n, e)).pop? = some (m, ch) ∧
      (s.engine e).onUpdateSubscriptionReceive n (Engine.MsgUpdateSubscriptionReqRx.get m) =
        some engine ∧
      s' = { s with
        engine := update s.engine e engine
        updates := update s.updates (n, e) ch } := by
  simp only [next] at h
  split at h
  · simp at h
  · rename_i m ch hpop
    split at h
    · simp at h
    · rename_i engine hup
      exact ⟨m, ch, engine, hpop, hup, (Option.some.inj h).symm⟩

theorem nuzzleOnPublish_next {e : E} {n : N} (h : next s (.nuzzleOnPublish e n) = some s') :
    ∃ m ch r, (s.fanouts (e, n)).pop? = some (m, ch) ∧
      r = (s.nuzzle n).onPublishReceive e (Nuzzle.MsgPublishReqRx.get m) ∧
      s' = { s with
        nuzzle := update s.nuzzle n r.1
        fanouts := update s.fanouts (e, n) ch
        deliveries := Channel.post s.deliveries n
          (r.2.map fun o => (o.1, Nuzzle.MsgPublishReqTx.set o.2)) } := by
  simp only [next] at h
  split at h
  · simp at h
  · rename_i m ch hpop
    exact ⟨m, ch, _, hpop, rfl, (Option.some.inj h).symm⟩

theorem nuzzleOnUpdate_next {c : C} {n : N} {memory : E → RequestUpdateSubscription}
    (h : next s (.nuzzleOnUpdate c n memory) = some s') :
    ∃ m ch nuzzle out, (s.requests (c, n)).pop? = some (m, ch) ∧
      (s.nuzzle n).onUpdateSubscriptionReceive memory c
        (Nuzzle.MsgUpdateSubscriptionReqRx.get m) = some (nuzzle, out) ∧
      s' = { s with
        nuzzle := update s.nuzzle n nuzzle
        requests := update s.requests (c, n) ch
        updates := Channel.post s.updates n
          (out.map fun o => (o.1, Nuzzle.MsgUpdateSubscriptionReqTx.set o.2)) } := by
  simp only [next] at h
  split at h
  · simp at h
  · rename_i m ch hpop
    split at h
    · simp at h
    · rename_i nuzzle out hup
      exact ⟨m, ch, nuzzle, out, hpop, hup, (Option.some.inj h).symm⟩

theorem consumerOnPublish_next {n : N} {c : C} {now now' : UInt64}
    (h : next s (.consumerOnPublish n c now now') = some s') :
    ∃ m ch, (s.deliveries (n, c)).pop? = some (m, ch) ∧ s' = { s with
      consumer := update s.consumer c
        ((s.consumer c).onPublishReceive now now' (Consumer.MsgPublishReqRx.get m))
      deliveries := update s.deliveries (n, c) ch } := by
  simp only [next] at h
  split at h
  · simp at h
  · rename_i m ch hpop
    exact ⟨m, ch, hpop, (Option.some.inj h).symm⟩

end Inversion

/-- The runs of the system from its start, over lossless channels. -/
abbrev Runs (groupSize : UInt16) (trace : Trace B P E N C) (s : State B P E N C) : Prop :=
  Run (Steps next) (start groupSize) trace s

end State

end Firehose.Cluster
