import Firehose.Cluster.Integrity
import Firehose.Cluster.Links
import Firehose.Cluster.Routing

set_option autoImplicit false

/-!
# The system over its connections

The parties with the connections of `network.cpp` between them, as bytes.  Between the
handlers of the parties the ends of each connection write, read, lag behind and fail on their
own.  Seen through the messages on the connections, every run is one of the system whose
channels lose and invent nothing.
-/

namespace Firehose.Cluster

open Firehose.Api Firehose.Foundation Firehose.Network Firehose.Node
open Function (update)

/-- The state of every party and of every connection. -/
structure Deployed (B P E N C T : Type) where
  publisher : B → Publisher P
  pump : P → Pump E
  engine : E → Engine N
  nuzzle : N → Nuzzle E C
  consumer : C → Consumer N
  links : Links B P E N C T

/-- What a step does. -/
inductive DeployedAction (B P E N C T : Type)
  /-- An end of a connection goes on, and no message is completed. -/
  | link (d : Direction B P E N C) (a : LinkAction T)
  /-- A read completes a message of another class than the direction's, whose handler does
  nothing. -/
  | ignored (d : Direction B P E N C) (now : UInt64)
  /-- A party acts.  The handler of a message is called by the read that completes it, at a
  time `now`; `threads` send the messages, with `reqIds` in their objects. -/
  | party (a : Action B P E N C) (now : UInt64) (threads : Nat → T) (reqIds : Nat → UInt64)

/-- No write and no read fails. -/
def DeployedAction.Succeeds {B P E N C T : Type} : DeployedAction B P E N C T → Prop
  | .link _ a => a.Succeeds
  | _ => True

namespace Deployed

variable {B P E N C T : Type}

/-- Every party and every connection just constructed, with what was in the buffers. -/
def start (groupSize : UInt16) (headerBuf headerBuf' : Direction B P E N C → Bytes)
    (preHeader preHeader' : Direction B P E N C → PreHeader) : Deployed B P E N C T where
  publisher := fun _ => .new
  pump := fun _ => .new
  engine := fun _ => .new
  nuzzle := fun _ => .new groupSize
  consumer := fun _ => .new
  links := fun d => .start (headerBuf d) (headerBuf' d) (preHeader d) (preHeader' d)

variable [DecidableEq B] [DecidableEq P] [DecidableEq E] [DecidableEq N] [DecidableEq C]
variable [DecidableEq T]

/-- One step of a party. -/
def nextParty (proto : Protobuf) (s : Deployed B P E N C T) (time : UInt64) (threads : Nat → T)
    (reqIds : Nat → UInt64) : Action B P E N C → Option (Deployed B P E N C T)
  | .connectToPump b p =>
      some { s with publisher := update s.publisher b ((s.publisher b).connectToPump p) }
  | .pumpConnectToEngine p e =>
      if e ∈ (s.pump p).engineConnections then none
      else some { s with pump := update s.pump p ((s.pump p).connectToEngine e) }
  | .nuzzleConnectToEngine n e =>
      if e ∈ (s.nuzzle n).engineConnections then none
      else some { s with nuzzle := update s.nuzzle n ((s.nuzzle n).connectToEngine e) }
  | .connectToNuzzle c n =>
      some { s with consumer := update s.consumer c ((s.consumer c).connectToNuzzle n) }
  | .publish b now request =>
      match (s.publisher b).publish now request with
      | none => none
      | some (publisher, p, sent) =>
          (Links.sendAll proto threads 0 s.links
            (Links.outgoing proto .publishReq (fun p => .publish (b, p)) reqIds 0
              [(p, Publisher.MsgPublishReqTx.set sent)])).map fun links =>
            { s with publisher := update s.publisher b publisher, links := links }
  | .updateSubscribtion c request =>
      match (s.consumer c).updateSubscribtion request with
      | none => none
      | some (n, sent) =>
          (Links.sendAll proto threads 0 s.links
            (Links.outgoing proto .updateSubscriptionReq (fun n => .request (c, n)) reqIds 0
              [(n, Consumer.MsgUpdateSubscriptionReqTx.set sent)])).map fun links =>
            { s with links := links }
  | .pumpOnPublish b p memory =>
      match Links.take proto s.links (.publish (b, p)) time with
      | none => none
      | some (m, links) =>
          let r := (s.pump p).onPublishReceive memory (Pump.MsgPublishReqRx.get m)
          (Links.sendAll proto threads 0 links
            (Links.outgoing proto .prepareReq (fun e => .prepare (p, e)) reqIds 0
              (r.2.map fun o => (o.1, Pump.MsgPrepareReqTx.set o.2)))).map fun links =>
            { s with pump := update s.pump p r.1, links := links }
  | .pumpOnPrepareAck e p =>
      (Links.take proto s.links (.ack (e, p)) time).map fun r =>
        { s with
          pump :=
            update s.pump p ((s.pump p).onPrepareAckReceive (Pump.MsgPrepareRspRx.get r.1))
          links := r.2 }
  | .engineOnPrepare p e ackMemory publishMemory =>
      match Links.take proto s.links (.prepare (p, e)) time with
      | none => none
      | some (m, links) =>
          let r := (s.engine e).onPrepareReceive ackMemory publishMemory p
            (Engine.MsgPrepareReqRx.get m)
          match Links.sendAll proto threads 0 links
              (Links.outgoing proto .prepareRsp (fun p => .ack (e, p)) reqIds 0
                (r.2.1.map fun o => (o.1, Engine.MsgPrepareRspTx.set o.2))) with
          | none => none
          | some links =>
              (Links.sendAll proto threads r.2.1.length links
                (Links.outgoing proto .publishReq (fun n => .fanout (e, n)) reqIds r.2.1.length
                  (r.2.2.map fun o => (o.1, Engine.MsgPublishReqTx.set o.2)))).map fun links =>
                { s with engine := update s.engine e r.1, links := links }
  | .engineOnUpdate n e =>
      match Links.take proto s.links (.update (n, e)) time with
      | none => none
      | some (m, links) =>
          ((s.engine e).onUpdateSubscriptionReceive n
              (Engine.MsgUpdateSubscriptionReqRx.get m)).map fun engine =>
            { s with engine := update s.engine e engine, links := links }
  | .nuzzleOnPublish e n =>
      match Links.take proto s.links (.fanout (e, n)) time with
      | none => none
      | some (m, links) =>
          let r := (s.nuzzle n).onPublishReceive e (Nuzzle.MsgPublishReqRx.get m)
          (Links.sendAll proto threads 0 links
            (Links.outgoing proto .publishReq (fun c => .delivery (n, c)) reqIds 0
              (r.2.map fun o => (o.1, Nuzzle.MsgPublishReqTx.set o.2)))).map fun links =>
            { s with nuzzle := update s.nuzzle n r.1, links := links }
  | .nuzzleOnUpdate c n memory =>
      match Links.take proto s.links (.request (c, n)) time with
      | none => none
      | some (m, links) =>
          match (s.nuzzle n).onUpdateSubscriptionReceive memory c
              (Nuzzle.MsgUpdateSubscriptionReqRx.get m) with
          | none => none
          | some (nuzzle, out) =>
              (Links.sendAll proto threads 0 links
                (Links.outgoing proto .updateSubscriptionReq (fun e => .update (n, e)) reqIds 0
                  (out.map fun o => (o.1, Nuzzle.MsgUpdateSubscriptionReqTx.set o.2)))).map
                fun links => { s with nuzzle := update s.nuzzle n nuzzle, links := links }
  | .consumerOnPublish n c now now' =>
      (Links.take proto s.links (.delivery (n, c)) time).map fun r =>
        { s with
          consumer := update s.consumer c
            ((s.consumer c).onPublishReceive now now' (Consumer.MsgPublishReqRx.get r.1))
          links := r.2 }

/-- One step. -/
def next (proto : Protobuf) (s : Deployed B P E N C T) :
    DeployedAction B P E N C T → Option (Deployed B P E N C T)
  | .link d a =>
      match Link.event (Links.handler proto d) (s.links d) a with
      | some _ => none
      | none =>
          ((s.links d).next (Links.handler proto d) a).map fun link =>
            { s with links := update s.links d link }
  | .ignored d now =>
      match (s.links d).receive (Links.handler proto d) now with
      | none => none
      | some (r, link) =>
          match received proto d.taken d.cls r.contents with
          | some _ => none
          | none => some { s with links := update s.links d link }
  | .party a now threads reqIds => nextParty proto s now threads reqIds a

/-! ## The messages on the connections -/

/-- The system with channels for the connections. -/
def abs (proto : Protobuf) (s : Deployed B P E N C T) : State B P E N C where
  publisher := s.publisher
  pump := s.pump
  engine := s.engine
  nuzzle := s.nuzzle
  consumer := s.consumer
  publishes := Links.view proto .publishReq Pump.PublisherConnection.taken .publish s.links
  prepares := Links.view proto .prepareReq Engine.PumpConnection.taken .prepare s.links
  acks := Links.view proto .prepareRsp Pump.EngineConnection.taken .ack s.links
  updates :=
    Links.view proto .updateSubscriptionReq Engine.NuzzleConnection.taken .update s.links
  fanouts := Links.view proto .publishReq Nuzzle.EngineConnection.taken .fanout s.links
  requests :=
    Links.view proto .updateSubscriptionReq Nuzzle.ConsumerConnection.taken .request s.links
  deliveries := Links.view proto .publishReq Consumer.NuzzleConnection.taken .delivery s.links

/-- What a step is to the system with channels: a step of a party, or nothing. -/
def event (_ : Deployed B P E N C T) : DeployedAction B P E N C T → Option (Action B P E N C)
  | .party a _ _ _ => some a
  | _ => none

/-! ## What has been sent stays sent -/

variable {proto : Protobuf} {s s' : Deployed B P E N C T}

theorem grows_nextParty {time : UInt64} {threads : Nat → T} {reqIds : Nat → UInt64}
    {a : Action B P E N C} (h : nextParty proto s time threads reqIds a = some s') :
    Links.Grows s.links s'.links := by
  cases a with
  | connectToPump b p | connectToNuzzle c n =>
      obtain rfl := Option.some.inj h
      exact Links.Grows.refl _
  | pumpConnectToEngine p e | nuzzleConnectToEngine n e =>
      simp only [nextParty] at h
      split at h
      · simp at h
      · obtain rfl := Option.some.inj h
        exact Links.Grows.refl _
  | publish b now request | updateSubscribtion c request =>
      simp only [nextParty] at h
      split at h
      · simp at h
      · obtain ⟨links, hsend, rfl⟩ := Option.map_eq_some_iff.mp h
        exact (Links.grows_sendAll hsend).1
  | pumpOnPublish b p memory | nuzzleOnPublish e n =>
      simp only [nextParty] at h
      split at h
      · simp at h
      · rename_i htake
        obtain ⟨links, hsend, rfl⟩ := Option.map_eq_some_iff.mp h
        exact (Links.grows_take htake).trans (Links.grows_sendAll hsend).1
  | pumpOnPrepareAck e p | consumerOnPublish n c now now' =>
      obtain ⟨⟨m, links⟩, htake, rfl⟩ := Option.map_eq_some_iff.mp h
      exact Links.grows_take htake
  | engineOnPrepare p e ackMemory publishMemory =>
      simp only [nextParty] at h
      split at h
      · simp at h
      · rename_i htake
        split at h
        · simp at h
        · rename_i hack
          obtain ⟨links, hsend, rfl⟩ := Option.map_eq_some_iff.mp h
          exact ((Links.grows_take htake).trans (Links.grows_sendAll hack).1).trans
            (Links.grows_sendAll hsend).1
  | engineOnUpdate n e =>
      simp only [nextParty] at h
      split at h
      · simp at h
      · rename_i htake
        obtain ⟨engine, -, rfl⟩ := Option.map_eq_some_iff.mp h
        exact Links.grows_take htake
  | nuzzleOnUpdate c n memory =>
      simp only [nextParty] at h
      split at h
      · simp at h
      · rename_i htake
        split at h
        · simp at h
        · obtain ⟨links, hsend, rfl⟩ := Option.map_eq_some_iff.mp h
          exact (Links.grows_take htake).trans (Links.grows_sendAll hsend).1

theorem grows_next {a : DeployedAction B P E N C T} (h : next proto s a = some s') :
    Links.Grows s.links s'.links := by
  cases a with
  | link d a =>
      simp only [next] at h
      split at h
      · simp at h
      · obtain ⟨link, hstep, rfl⟩ := Option.map_eq_some_iff.mp h
        exact Links.grows_update (Link.pushed_prefix_next hstep)
  | ignored d now =>
      simp only [next] at h
      split at h
      · simp at h
      · rename_i hreceive
        split at h
        · simp at h
        · obtain rfl := Option.some.inj h
          exact Links.grows_update (by rw [(Link.receive_eq_some hreceive).2.2.2])
  | party a now threads reqIds => exact grows_nextParty h

/-! ## Each step of a party is one over channels -/

variable {ok : Prop}

theorem nextParty_abs (hs : Links.Sound proto ok s.links) {time : UInt64} {threads : Nat → T}
    {reqIds : Nat → UInt64} {a : Action B P E N C}
    (h : nextParty proto s time threads reqIds a = some s') (hfits : Links.Fits s'.links) :
    Links.Sound proto ok s'.links ∧ State.next (abs proto s) a = some (abs proto s') := by
  cases a with
  | connectToPump b p | connectToNuzzle c n =>
      obtain rfl := Option.some.inj h
      exact ⟨hs, rfl⟩
  | pumpConnectToEngine p e | nuzzleConnectToEngine n e =>
      simp only [nextParty] at h
      split at h
      · simp at h
      · rename_i hfresh
        obtain rfl := Option.some.inj h
        refine ⟨hs, ?_⟩
        simp only [State.next, abs, hfresh, if_false]
  | publish b now request =>
      simp only [nextParty] at h
      split at h
      · simp at h
      · rename_i publisher p sent hpub
        obtain ⟨links, hsend, rfl⟩ := Option.map_eq_some_iff.mp h
        obtain ⟨hs', hpushed, hpost⟩ := hs.post Direction.oneKind_publish hsend hfits
        refine ⟨hs', ?_⟩
        simp [State.next, abs, hpub, hpost, Links.view_pushed_ne hpushed]
  | updateSubscribtion c request =>
      simp only [nextParty] at h
      split at h
      · simp at h
      · rename_i n sent hupdate
        obtain ⟨links, hsend, rfl⟩ := Option.map_eq_some_iff.mp h
        obtain ⟨hs', hpushed, hpost⟩ := hs.post Direction.oneKind_request hsend hfits
        refine ⟨hs', ?_⟩
        simp [State.next, abs, hupdate, hpost, Links.view_pushed_ne hpushed]
  | pumpOnPublish b p memory =>
      simp only [nextParty] at h
      split at h
      · simp at h
      · rename_i m links htake
        obtain ⟨links', hsend, rfl⟩ := Option.map_eq_some_iff.mp h
        obtain ⟨x, link, rfl, hs₁, hpop, hm⟩ := hs.take htake
        obtain ⟨ch, hpop', hview⟩ := Links.view_take Direction.oneKind_publish hpop hm
        obtain ⟨hs', hpushed, hpost⟩ := hs₁.post Direction.oneKind_prepare hsend hfits
        refine ⟨hs', ?_⟩
        simp [State.next, abs, hpop', hview, hpost, Links.view_pushed_ne hpushed,
          Links.view_update_ne]
  | pumpOnPrepareAck e p =>
      obtain ⟨⟨m, links⟩, htake, rfl⟩ := Option.map_eq_some_iff.mp h
      obtain ⟨x, link, rfl, hs', hpop, hm⟩ := hs.take htake
      obtain ⟨ch, hpop', hview⟩ := Links.view_take Direction.oneKind_ack hpop hm
      refine ⟨hs', ?_⟩
      simp [State.next, abs, hpop', hview, Links.view_update_ne]
  | engineOnPrepare p e ackMemory publishMemory =>
      simp only [nextParty] at h
      split at h
      · simp at h
      · rename_i m links htake
        split at h
        · simp at h
        · rename_i links₁ hack
          obtain ⟨links', hsend, rfl⟩ := Option.map_eq_some_iff.mp h
          obtain ⟨x, link, rfl, hs₁, hpop, hm⟩ := hs.take htake
          obtain ⟨ch, hpop', hview⟩ := Links.view_take Direction.oneKind_prepare hpop hm
          obtain ⟨hs₂, hpushed₂, hpost₂⟩ :=
            hs₁.post Direction.oneKind_ack hack (hfits.of_sendAll hsend).1
          obtain ⟨hs', hpushed, hpost⟩ := hs₂.post Direction.oneKind_fanout hsend hfits
          refine ⟨hs', ?_⟩
          simp [State.next, abs, hpop', hview, hpost₂, hpost, Links.view_pushed_ne hpushed₂,
            Links.view_pushed_ne hpushed, Links.view_update_ne]
  | engineOnUpdate n e =>
      simp only [nextParty] at h
      split at h
      · simp at h
      · rename_i m links htake
        obtain ⟨engine, hupdate, rfl⟩ := Option.map_eq_some_iff.mp h
        obtain ⟨x, link, rfl, hs', hpop, hm⟩ := hs.take htake
        obtain ⟨ch, hpop', hview⟩ := Links.view_take Direction.oneKind_update hpop hm
        refine ⟨hs', ?_⟩
        simp [State.next, abs, hpop', hupdate, hview, Links.view_update_ne]
  | nuzzleOnPublish e n =>
      simp only [nextParty] at h
      split at h
      · simp at h
      · rename_i m links htake
        obtain ⟨links', hsend, rfl⟩ := Option.map_eq_some_iff.mp h
        obtain ⟨x, link, rfl, hs₁, hpop, hm⟩ := hs.take htake
        obtain ⟨ch, hpop', hview⟩ := Links.view_take Direction.oneKind_fanout hpop hm
        obtain ⟨hs', hpushed, hpost⟩ := hs₁.post Direction.oneKind_delivery hsend hfits
        refine ⟨hs', ?_⟩
        simp [State.next, abs, hpop', hview, hpost, Links.view_pushed_ne hpushed,
          Links.view_update_ne]
  | nuzzleOnUpdate c n memory =>
      simp only [nextParty] at h
      split at h
      · simp at h
      · rename_i m links htake
        split at h
        · simp at h
        · rename_i nuzzle out hupdate
          obtain ⟨links', hsend, rfl⟩ := Option.map_eq_some_iff.mp h
          obtain ⟨x, link, rfl, hs₁, hpop, hm⟩ := hs.take htake
          obtain ⟨ch, hpop', hview⟩ := Links.view_take Direction.oneKind_request hpop hm
          obtain ⟨hs', hpushed, hpost⟩ := hs₁.post Direction.oneKind_update hsend hfits
          refine ⟨hs', ?_⟩
          simp [State.next, abs, hpop', hupdate, hview, hpost, Links.view_pushed_ne hpushed,
            Links.view_update_ne]
  | consumerOnPublish n c now now' =>
      obtain ⟨⟨m, links⟩, htake, rfl⟩ := Option.map_eq_some_iff.mp h
      obtain ⟨x, link, rfl, hs', hpop, hm⟩ := hs.take htake
      obtain ⟨ch, hpop', hview⟩ := Links.view_take Direction.oneKind_delivery hpop hm
      refine ⟨hs', ?_⟩
      simp [State.next, abs, hpop', hview, Links.view_update_ne]

/-- A step is one over channels, or none. -/
theorem next_abs (hs : Links.Sound proto ok s.links) {a : DeployedAction B P E N C T}
    (h : next proto s a = some s') (hfits : Links.Fits s'.links) (hok : ok → a.Succeeds) :
    Links.Sound proto ok s'.links ∧ Simulates (Steps State.next) (abs proto) event s a s' := by
  cases a with
  | link d a =>
      simp only [next] at h
      split at h
      · simp at h
      · rename_i hnone
        obtain ⟨link, hstep, rfl⟩ := Option.map_eq_some_iff.mp h
        obtain ⟨hone, hpushed⟩ := Link.pushed_eq_of_event hstep hnone
        have hchannel := (hs.reached d).channel_eq hstep hnone
        refine ⟨hs.update ((hs.reached d).next hstep hone hok) (hpushed ▸ hs.typed d), ?_⟩
        have hsame : ∀ d', (update s.links d link d').channel = (s.links d').channel := by
          intro d'
          rcases Decidable.em (d' = d) with hd | hother
          · subst hd
            rw [Function.update_self, hchannel]
          · rw [Function.update_of_ne hother]
        simp only [Simulates, event, abs, Links.view_congr fun ends => hsame _]
  | ignored d now =>
      simp only [next] at h
      split at h
      · simp at h
      · rename_i r link hreceive
        split at h
        · simp at h
        · rename_i hnone
          -- every message sent is of the class that the handler is for
          obtain rfl := Option.some.inj h
          have hgrows : Links.Grows s.links (update s.links d link) :=
            Links.grows_update (by rw [(Link.receive_eq_some hreceive).2.2.2])
          obtain ⟨reqId, m, hm, -⟩ := hs.received (hfits.of_grows hgrows)
            ((hs.reached d).pop?_channel hreceive)
          rw [hnone] at hm
          simp at hm
  | party a now threads reqIds => exact nextParty_abs hs h hfits

/-- Neither end of a connection can go on. -/
def Still (proto : Protobuf) (s : Deployed B P E N C T) : Prop :=
  ∀ d, (s.links d).sending.AtRest ∧
    ∀ now, (s.links d).next (Links.handler proto d) (.read now) = none

omit [DecidableEq B] [DecidableEq P] [DecidableEq E] [DecidableEq N] [DecidableEq C] in
theorem quiescent_abs (hs : Links.Sound proto ok s.links) (hok : ok) (hstill : Still proto s) :
    State.Quiescent (abs proto s) := by
  have hempty : ∀ d, (s.links d).channel.queue = [] := fun d =>
    (hs.reached d).queue_eq_nil hok (hstill d).1 (hstill d).2
  simp [State.Quiescent, abs, Links.view, Channel.filterMap, hempty]

section Runs

variable {groupSize : UInt16} {headerBuf headerBuf' : Direction B P E N C → Bytes}
variable {preHeader preHeader' : Direction B P E N C → PreHeader}
variable {trace : List (Deployed B P E N C T × DeployedAction B P E N C T)}

/-- The runs of the deployed system. -/
abbrev Runs (proto : Protobuf) (groupSize : UInt16)
    (headerBuf headerBuf' : Direction B P E N C → Bytes)
    (preHeader preHeader' : Direction B P E N C → PreHeader)
    (trace : List (Deployed B P E N C T × DeployedAction B P E N C T))
    (s : Deployed B P E N C T) : Prop :=
  Run (Steps (next proto)) (start groupSize headerBuf headerBuf' preHeader preHeader') trace s

theorem abs_run (h : Runs proto groupSize headerBuf headerBuf' preHeader preHeader' trace s)
    (hfits : Links.Fits s.links) (hok : ok → ∀ x ∈ trace, x.2.Succeeds) :
    Links.Sound proto ok s.links ∧
      State.Runs groupSize (projectTrace (abs proto) event trace) (abs proto s) := by
  induction h with
  | refl => exact ⟨⟨fun d => .start .., by simp [start, Link.start, Sending.start]⟩, .refl⟩
  | @snoc trace s s' a hrun hstep ih =>
      obtain ⟨hs, habs⟩ := ih (hfits.of_grows (grows_next hstep)) fun hholds x hx =>
        hok hholds x (List.mem_append_left _ hx)
      obtain ⟨hs', hsim⟩ := next_abs hs hstep hfits fun hholds =>
        hok hholds (s, a) (List.mem_append_right _ (List.mem_singleton.mpr rfl))
      exact ⟨hs', habs.snocProjected hsim⟩

/-- Whatever is written and read when, and whatever fails, a run over the connections is a
run over channels that lose, repeat, reorder and invent nothing; and when nothing has failed
and no connection can go on, no message is in flight. -/
theorem refines_state
    (h : Runs proto groupSize headerBuf headerBuf' preHeader preHeader' trace s)
    (hfits : Links.Fits s.links) :
    State.Runs groupSize (projectTrace (abs proto) event trace) (abs proto s) ∧
      ((∀ x ∈ trace, x.2.Succeeds) → Still proto s → State.Quiescent (abs proto s)) := by
  obtain ⟨hs, hrun⟩ := abs_run h hfits fun hsucceeds : ∀ x ∈ trace, x.2.Succeeds => hsucceeds
  exact ⟨hrun, quiescent_abs hs⟩

/-- A message of `len` bytes is written up to its last byte, which is on its way. -/
def writes (d : Direction B P E N C) (t : T) (len : Nat) : List (DeployedAction B P E N C T) :=
  [.link d (.send (.post t)), .link d (.send .trySend), .link d (.send (.sendNext 70 0)),
    .link d (.send (.written .prehdr none 48)), .link d (.read 71),
    .link d (.send (.written (.hdr len) none len))]

/-- The engine closes the connection over which a pump gets its acknowledgements, in the
middle of one. -/
def closes (d : Direction B P E N C) (t : T) : List (DeployedAction B P E N C T) :=
  [.link d (.send (.post t)), .link d (.send .trySend), .link d (.send (.sendNext 70 0)),
    .link d (.send (.written .prehdr (some "Operation canceled") 20)),
    .link d (.readFails "End of file")]

/-- One message on its way over the connections through one server of each kind, up to the
last handler. -/
def oneDelivery (b : B) (p : P) (e : E) (n : N) (c : C) (t : T) :
    List (DeployedAction B P E N C T) :=
  let acts : Action B P E N C → DeployedAction B P E N C T :=
    fun a => .party a 72 (fun _ => t) (fun _ => 0)
  [acts (.pumpConnectToEngine p e), acts (.nuzzleConnectToEngine n e),
    acts (.connectToPump b p), acts (.connectToNuzzle c n),
    acts (.updateSubscribtion c (.on 7 1))] ++ writes (.request (c, n)) t 51 ++
  [acts (.nuzzleOnUpdate c n fun _ => default)] ++ writes (.update (n, e)) t 14 ++
  [acts (.engineOnUpdate n e), acts (.publish b 5 (.on 7 [1]))] ++
  writes (.publish (b, p)) t 54 ++ [acts (.pumpOnPublish b p default)] ++
  writes (.prepare (p, e)) t 54 ++ [acts (.engineOnPrepare p e default default)] ++
  closes (.ack (e, p)) t ++ writes (.fanout (e, n)) t 54 ++ [acts (.nuzzleOnPublish e n)] ++
  writes (.delivery (n, c)) t 54

theorem refines_state_oneDelivery :
    ∃ (trace : List (Deployed Unit Unit Unit Unit Unit Unit ×
        DeployedAction Unit Unit Unit Unit Unit Unit))
      (s : Deployed Unit Unit Unit Unit Unit Unit),
      State.Runs 1 (projectTrace (abs protobuf) event trace) (abs protobuf s) ∧
        (s.nuzzle ()).subscriptions.get 7 = [()] ∧ (s.links (.ack ((), ()))).socket ≠ [] := by
  obtain ⟨trace, s, hrun, hfits, hsubs, hsocket⟩ :=
    exists_run_of_execute (oneDelivery () () () () () ()) (next protobuf)
      (start 1 (fun _ => []) (fun _ => []) (fun _ => default) fun _ => default)
      (fun _ s => Links.Fits s.links ∧ (s.nuzzle ()).subscriptions.get 7 = [()] ∧
        (s.links (.ack ((), ()))).socket ≠ []) (by decide +kernel)
  exact ⟨trace, s, (refines_state hrun hfits).1, hsubs, hsocket⟩

/-! ## From a publisher to a consumer -/

omit [DecidableEq B] [DecidableEq P] [DecidableEq E] [DecidableEq N] [DecidableEq C]
  [DecidableEq T] in
/-- What a party has done over channels, it has done over the connections. -/
theorem exists_party {t : State B P E N C} {a : Action B P E N C}
    (h : (t, a) ∈ projectTrace (abs proto) event trace) :
    ∃ x ∈ trace, ∃ time threads reqIds, x.2 = .party a time threads reqIds := by
  obtain ⟨x, hx, hmap⟩ := List.mem_filterMap.mp h
  obtain ⟨b, hb, heq⟩ := Option.map_eq_some_iff.mp hmap
  obtain ⟨-, rfl⟩ := Prod.mk.inj heq
  refine ⟨x, hx, ?_⟩
  cases hact : x.2 with
  | party a time threads reqIds =>
      rw [hact] at hb
      obtain rfl := Option.some.inj hb
      exact ⟨time, threads, reqIds, rfl⟩
  | link d a | ignored d now =>
      rw [hact] at hb
      simp [event] at hb

/-- Whatever fails on the connections, every line that a consumer logs is that of a message
with the topic, the time and the bytes of an earlier `publish`, on a topic that the consumer
has subscribed to. -/
theorem logged_published
    (h : Runs proto groupSize headerBuf headerBuf' preHeader preHeader' trace s)
    {n : N} {c : C} {now now' time : UInt64} {threads : Nat → T} {reqIds : Nat → UInt64}
    (hstep : next proto s (.party (.consumerOnPublish n c now now') time threads reqIds) = some s')
    (hfits : Links.Fits s'.links) :
    ∃ r : RequestPublish,
      (s'.consumer c).logBuffer = (s.consumer c).logBuffer ++ [Consumer.logLine now now' r] ∧
      (∃ x ∈ trace, ∃ b stamp request time threads reqIds,
        x.2 = .party (.publish b stamp request) time threads reqIds ∧
          r.content = ⟨request.topicId, stamp, request.message⟩) ∧
      ∃ x ∈ trace, ∃ request time threads reqIds,
        x.2 = .party (.updateSubscribtion c request) time threads reqIds ∧
          request.topicId = r.topicId ∧ request.set.get.isSubscribe = true := by
  obtain ⟨hs, hrun⟩ := abs_run h (hfits.of_grows (grows_next hstep)) False.elim
  have hevent : event s (.party (.consumerOnPublish n c now now') time threads reqIds) =
      some (.consumerOnPublish n c now now') := rfl
  have hnext := (next_abs hs hstep hfits False.elim).2.step_of_event hevent
  obtain ⟨m, ch, hpop, habs⟩ := State.consumerOnPublish_next hnext
  have hsent : m ∈ ((abs proto s).deliveries (n, c)).sent :=
    List.mem_append_right _ (List.mem_of_head? (Channel.head?_of_pop? hpop))
  refine ⟨Consumer.MsgPublishReqRx.get m, ?_, ?_, ?_⟩
  · have hconsumer : s'.consumer = (abs proto s').consumer := rfl
    rw [hconsumer, habs]
    simp [abs, Consumer.onPublishReceive]
  · obtain ⟨r, hr, -, -, -, -, -, hcontent⟩ :=
      (State.intact_run hrun.faulty).deliveries n c m hsent
    obtain ⟨y, hy, hpublished⟩ := List.mem_filterMap.mp hr
    obtain ⟨⟨t, a⟩, hta, rfl⟩ := List.mem_map.mp hy
    obtain ⟨b, stamp, request, rfl, hr'⟩ := State.publishedAt_eq_some hpublished
    obtain ⟨x, hx, time', threads', reqIds', hact⟩ := exists_party hta
    exact ⟨x, hx, b, stamp, request, time', threads', reqIds', hact, hcontent.trans hr'⟩
  · obtain ⟨i, hi⟩ := List.mem_iff_getElem?.mp hsent
    obtain ⟨t₁, y, t₂, -, hcut, -, -, -, -, hpos⟩ := State.delivered_run hrun hi
    obtain ⟨⟨t, a⟩, hta, request, rfl, htopic, hsub⟩ :=
      State.subscribed_run (Run.before (hcut ▸ hrun)) hpos
    have hmem : (t, Action.updateSubscribtion c request) ∈ projectTrace (abs proto) event trace :=
      hcut ▸ List.mem_append_left _ hta
    obtain ⟨x, hx, time', threads', reqIds', hact⟩ := exists_party hmem
    exact ⟨x, hx, request, time', threads', reqIds', hact, htopic, hsub⟩

theorem logged_published_oneDelivery :
    ∃ (trace : List (Deployed Unit Unit Unit Unit Unit Unit ×
        DeployedAction Unit Unit Unit Unit Unit Unit))
      (s s' : Deployed Unit Unit Unit Unit Unit Unit) (r : RequestPublish),
      (s'.consumer ()).logBuffer = (s.consumer ()).logBuffer ++ [Consumer.logLine 8 9 r] ∧
      (s'.consumer ()).logBuffer = ["8,7,0,4"] ∧
      ∃ x ∈ trace, ∃ b stamp request time threads reqIds,
        x.2 = .party (.publish b stamp request) time threads reqIds ∧
          r.content = ⟨request.topicId, stamp, request.message⟩ := by
  obtain ⟨trace, s, hrun, hlast⟩ :=
    exists_run_of_execute (oneDelivery () () () () () ()) (next protobuf)
      (start 1 (fun _ => []) (fun _ => []) (fun _ => default) fun _ => default)
      (fun _ s => (next protobuf s (.party (.consumerOnPublish () () 8 9) 73 (fun _ => ())
        fun _ => 0)).any (fun s' => decide (Links.Fits s'.links ∧
          (s'.consumer ()).logBuffer = ["8,7,0,4"])) = true) (by decide +kernel)
  obtain ⟨s', hstep, hend⟩ := (Option.any_eq_true _ _).mp hlast
  obtain ⟨hfits, hlog⟩ := of_decide_eq_true hend
  obtain ⟨r, hline, hpublished, -⟩ := logged_published hrun hstep hfits
  exact ⟨trace, s, s', r, hline, hlog, hpublished⟩

end Runs

end Deployed

end Firehose.Cluster
