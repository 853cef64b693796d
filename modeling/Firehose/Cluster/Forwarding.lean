import Firehose.Foundation.Channel
import Firehose.Foundation.Run
import Firehose.Node.Unset

set_option autoImplicit false

/-!
# A nuzzle and its engines

The part of the system that keeps subscriptions: consumers' requests reach the nuzzle, the
nuzzle forwards them to every engine it is connected to, and each engine carries them out
in the order of its connection.  The client identifier that an engine records is a field
of a local struct of the nuzzle that nobody sets, so what the engines end up with is the
same in two executions when these values are.
-/

namespace Firehose.Cluster

open Firehose.Api Firehose.Foundation Firehose.Node
open Function (update)
open Channel (addressedTo)

/-- A nuzzle, its engines, and the requests under way to each engine. -/
structure Forwarding (E C : Type) where
  nuzzle : Nuzzle E C
  engine : E → Engine Unit
  updates : E → List RequestUpdateSubscriptionProto

inductive ForwardingAction (E C : Type)
  /-- `Nuzzle::connect_to_engine` -/
  | connect (e : E)
  /-- `Nuzzle::on_update_subscription_receive` -/
  | request (c : C) (memory : E → RequestUpdateSubscription)
      (m : RequestUpdateSubscriptionProto)
  /-- `Engine::on_update_subscription_receive` -/
  | handle (e : E)

/-- Two actions that differ at most in what the nuzzle's local structs held, and there as
`R` allows. -/
inductive SameBut {E C : Type} (R : RequestUpdateSubscription → RequestUpdateSubscription → Prop) :
    ForwardingAction E C → ForwardingAction E C → Prop
  | connect (e : E) : SameBut R (.connect e) (.connect e)
  | request {memory memory' : E → RequestUpdateSubscription} (c : C)
      (m : RequestUpdateSubscriptionProto) (h : ∀ e, R (memory e) (memory' e)) :
      SameBut R (.request c memory m) (.request c memory' m)
  | handle (e : E) : SameBut R (.handle e) (.handle e)

/-- The same requests, whatever was in memory. -/
abbrev SameRequests {E C : Type} (a a' : ForwardingAction E C) : Prop :=
  SameBut (fun _ _ => True) a a'

/-- The same requests, and the same client identifiers in memory. -/
abbrev SameClients {E C : Type} (a a' : ForwardingAction E C) : Prop :=
  SameBut (fun memory memory' => memory.header.senderId = memory'.header.senderId) a a'

/-- Two requests that an engine cannot tell apart. -/
def SameUpdate (m m' : RequestUpdateSubscriptionProto) : Prop :=
  m.get.topicId = m'.get.topicId ∧ m.get.isSubscribe = m'.get.isSubscribe ∧
    Engine.clientId m.get = Engine.clientId m'.get

namespace Forwarding

variable {E C : Type} [DecidableEq E] [DecidableEq C]

def start (groupSize : UInt16) : Forwarding E C := ⟨.new groupSize, fun _ => .new, fun _ => []⟩

def next (s : Forwarding E C) : ForwardingAction E C → Option (Forwarding E C)
  | .connect e =>
      if e ∈ s.nuzzle.engineConnections then none
      else some { s with nuzzle := s.nuzzle.connectToEngine e }
  | .request c memory m =>
      match s.nuzzle.onUpdateSubscriptionReceive memory c
          (Nuzzle.MsgUpdateSubscriptionReqRx.get m) with
      | none => none
      | some (nuzzle, out) =>
          some { s with
            nuzzle := nuzzle
            updates := fun e => s.updates e ++
              addressedTo e (out.map fun o => (o.1, Nuzzle.MsgUpdateSubscriptionReqTx.set o.2)) }
  | .handle e =>
      match s.updates e with
      | [] => none
      | m :: rest =>
          match (s.engine e).onUpdateSubscriptionReceive ()
              (Engine.MsgUpdateSubscriptionReqRx.get m) with
          | none => none
          | some engine =>
              some { s with
                engine := update s.engine e engine
                updates := update s.updates e rest }

/-- Two states that agree, up to requests under way that no engine can tell apart. -/
structure Matches (s s' : Forwarding E C) : Prop where
  nuzzle_eq : s.nuzzle = s'.nuzzle
  engine_eq : s.engine = s'.engine
  updates : ∀ e, List.Forall₂ SameUpdate (s.updates e) (s'.updates e)

omit [DecidableEq E] [DecidableEq C] in
/-- What is forwarded with one topic and one action, under the same client identifiers. -/
theorem sameUpdate_forwarded {memory memory' : RequestUpdateSubscription} {topic : UInt64}
    {action : UInt8} (h : memory.header.senderId = memory'.header.senderId) :
    SameUpdate
      (RequestUpdateSubscription.set { memory.declared with topicId := topic, action := action })
      (RequestUpdateSubscription.set
        { memory'.declared with topicId := topic, action := action }) := by
  have hget : ∀ memory : RequestUpdateSubscription, Engine.clientId
      (RequestUpdateSubscription.set
        { memory.declared with topicId := topic, action := action }).get =
      memory.header.senderId.toInt64.toUInt64 := fun _ => rfl
  exact ⟨rfl, rfl, by rw [hget, hget, h]⟩

omit [DecidableEq C] in
theorem forall₂_addressedTo_forward {nuzzle : Nuzzle E C}
    {memory memory' : E → RequestUpdateSubscription} {topic : UInt64} {action : UInt8}
    (h : ∀ e, (memory e).header.senderId = (memory' e).header.senderId) (e : E) :
    List.Forall₂ SameUpdate
      (addressedTo e ((nuzzle.forward memory topic action).map fun o =>
        (o.1, Nuzzle.MsgUpdateSubscriptionReqTx.set o.2)))
      (addressedTo e ((nuzzle.forward memory' topic action).map fun o =>
        (o.1, Nuzzle.MsgUpdateSubscriptionReqTx.set o.2))) := by
  have hsent : ∀ memory : E → RequestUpdateSubscription,
      addressedTo e ((nuzzle.forward memory topic action).map fun o =>
        (o.1, Nuzzle.MsgUpdateSubscriptionReqTx.set o.2)) =
      List.replicate (nuzzle.engineConnections.count e) (RequestUpdateSubscription.set
        { (memory e).declared with topicId := topic, action := action }) := by
    intro memory
    simp only [Nuzzle.forward, List.map_map]
    exact Channel.addressedTo_map e nuzzle.engineConnections fun e =>
      RequestUpdateSubscription.set
        { (memory e).declared with topicId := topic, action := action }
  rw [hsent memory, hsent memory']
  exact List.forall₂_iff_get.mpr ⟨by simp, fun i _ _ => by
    simpa using sameUpdate_forwarded (h e)⟩

/-- A request forwards to the same engines in both states. -/
theorem matches_request {s s' t t' : Forwarding E C} (hmatch : Matches s s') {c : C}
    {memory memory' : E → RequestUpdateSubscription} {m : RequestUpdateSubscriptionProto}
    (hclients : ∀ e, (memory e).header.senderId = (memory' e).header.senderId)
    (h : next s (.request c memory m) = some t)
    (h' : next s' (.request c memory' m) = some t') : Matches t t' := by
  simp only [next, ← hmatch.nuzzle_eq] at h h'
  simp only [Nuzzle.onUpdateSubscriptionReceive] at h h'
  by_cases hsub : m.get.isSubscribe = true
  · simp only [hsub, if_true, Option.some.injEq] at h h'
    subst h h'
    exact ⟨rfl, hmatch.engine_eq, fun e =>
      List.rel_append (hmatch.updates e) (forall₂_addressedTo_forward hclients e)⟩
  · simp only [hsub, Bool.false_eq_true, if_false] at h h'
    by_cases hmem : c ∈ s.nuzzle.subscriptions.get m.get.topicId
    · simp only [hmem, if_true, Option.some.injEq] at h h'
      subst h h'
      exact ⟨rfl, hmatch.engine_eq, fun e =>
        List.rel_append (hmatch.updates e) (forall₂_addressedTo_forward hclients e)⟩
    · simp [hmem] at h

/-- An engine carries out requests it cannot tell apart in the same way. -/
theorem matches_handle {s s' t t' : Forwarding E C} (hmatch : Matches s s') {e : E}
    (h : next s (.handle e) = some t) (h' : next s' (.handle e) = some t') : Matches t t' := by
  have hqueue := hmatch.updates e
  simp only [next] at h h'
  rw [← hmatch.engine_eq] at h'
  cases hq : s.updates e with
  | nil => simp [hq] at h
  | cons m rest =>
      cases hq' : s'.updates e with
      | nil => simp [hq'] at h'
      | cons m' rest' =>
          rw [hq, hq'] at hqueue
          obtain ⟨hsame, hrest⟩ := List.forall₂_cons.mp hqueue
          have hcongr := (s.engine e).onUpdateSubscriptionReceive_congr ()
            hsame.1 hsame.2.1 hsame.2.2
          rw [hq] at h
          rw [hq'] at h'
          simp only [← hcongr] at h h'
          split at h
          · simp at h
          · rename_i engine hup
            simp only [hup, Option.some.injEq] at h h'
            subst h h'
            refine ⟨hmatch.nuzzle_eq, rfl, fun e' => ?_⟩
            by_cases he : e' = e
            · subst he
              simpa using hrest
            · simpa [he] using hmatch.updates e'

theorem matches_next {s s' t t' : Forwarding E C} {a a' : ForwardingAction E C}
    (hmatch : Matches s s') (hsame : SameClients a a') (h : Steps next s a t)
    (h' : Steps next s' a' t') : Matches t t' := by
  cases hsame with
  | connect e =>
      simp only [Steps, next, ← hmatch.nuzzle_eq] at h h'
      by_cases he : e ∈ s.nuzzle.engineConnections
      · simp [he] at h
      · simp only [he, if_false, Option.some.injEq] at h h'
        subst h h'
        exact ⟨by rw [hmatch.nuzzle_eq], hmatch.engine_eq, hmatch.updates⟩
  | request c m hclients => exact matches_request hmatch hclients h h'
  | handle e => exact matches_handle hmatch h h'

/-- Two runs on the same requests under the same client identifiers. -/
theorem matches_run {groupSize : UInt16}
    {trace trace' : List (Forwarding E C × ForwardingAction E C)} {s s' : Forwarding E C}
    (h : Run (Steps next) (start groupSize) trace s)
    (h' : Run (Steps next) (start groupSize) trace' s')
    (hsame : List.Forall₂ SameClients (trace.map (·.2)) (trace'.map (·.2))) : Matches s s' :=
  h.related h' hsame ⟨rfl, rfl, fun _ => .nil⟩
    fun _ _ _ _ _ _ hmatch hlabel hstep hstep' => matches_next hmatch hlabel hstep hstep'

/-- The engines record the same subscriptions. -/
def SameSubscriptions (s s' : Forwarding E C) : Prop :=
  ∀ e, (s.engine e).clientSubscriptions = (s'.engine e).clientSubscriptions ∧
    (s.engine e).subscriptions = (s'.engine e).subscriptions

/-- Two executions of a handler put the same on the wire exactly when they find the same
in the fields that are sent without having been set, and two runs of a nuzzle and its
engines under the same client identifiers leave the same subscriptions. -/
theorem unset_fields_sent {P N : Type} :
    (∀ (pump : Pump E) memory memory' reqIds reqIds' request,
      pump.wires memory reqIds request = pump.wires memory' reqIds' request ↔
        pump.FindsSame memory memory' reqIds reqIds') ∧
    (∀ (engine : Engine N) ackMemory ackMemory' publishMemory publishMemory' ackIds ackIds'
        publishIds publishIds' (connection : P) request,
      engine.wires ackMemory publishMemory ackIds publishIds connection request =
          engine.wires ackMemory' publishMemory' ackIds' publishIds' connection request ↔
        engine.FindsSame request.topicId ackMemory ackMemory' publishMemory publishMemory'
          ackIds ackIds' publishIds publishIds') ∧
    (∀ (nuzzle : Nuzzle E C) memory memory' reqIds reqIds' connection request,
      nuzzle.wires memory reqIds connection request =
          nuzzle.wires memory' reqIds' connection request ↔
        (nuzzle.Accepts connection request →
          nuzzle.FindsSame memory memory' reqIds reqIds')) ∧
    (∀ groupSize trace trace' (s s' : Forwarding E C),
      Run (Steps next) (start groupSize) trace s →
      Run (Steps next) (start groupSize) trace' s' →
      List.Forall₂ SameClients (trace.map (·.2)) (trace'.map (·.2)) →
        SameSubscriptions s s') := by
  refine ⟨fun _ _ _ _ _ _ => Pump.wires_inj, fun _ _ _ _ _ _ _ _ _ _ _ => Engine.wires_inj,
    fun _ _ _ _ _ _ _ => Nuzzle.wires_inj, fun _ _ _ s s' h h' hsame e => ?_⟩
  rw [(matches_run h h' hsame).engine_eq]
  exact ⟨rfl, rfl⟩

/-- A nuzzle forwards the one subscription it has, under a client identifier. -/
def oneSubscription (clientId : Int32) (e : E) (c : C) : List (ForwardingAction E C) :=
  [.connect e,
    .request c (fun _ => { (default : RequestUpdateSubscription) with
        header := { (default : RequestHeader) with senderId := clientId } })
      (RequestUpdateSubscription.on 7 1).setWithTelemetry,
    .handle e]

/-- Two executions of the nuzzle put different client identifiers on the wire, and the
engine records different clients. -/
theorem oneSubscription_indeterminate :
    (¬ ∀ (nuzzle : Nuzzle (Fin 1) (Fin 1)) memory memory' reqIds connection request,
      nuzzle.wires memory reqIds connection request =
        nuzzle.wires memory' reqIds connection request) ∧
    ¬ ∀ trace trace' (s s' : Forwarding (Fin 1) (Fin 1)),
      Run (Steps next) (start 1) trace s → Run (Steps next) (start 1) trace' s' →
      List.Forall₂ SameRequests (trace.map (·.2)) (trace'.map (·.2)) →
        SameSubscriptions s s' := by
  constructor
  · intro hclaim
    have hsame := hclaim (Nuzzle.connectToEngine (.new 1) 0)
      (fun _ => { (default : RequestUpdateSubscription) with
        header := { (default : RequestHeader) with senderId := 1 } })
      (fun _ => default) (fun _ => 0) 0 (.on 7 1)
    exact absurd hsame (by decide +kernel)
  · intro hclaim
    obtain ⟨trace, s, hrun, hlabels, hfirst⟩ :=
      exists_labelled_run_of_execute (oneSubscription 1 0 0) next
        (start 1 : Forwarding (Fin 1) (Fin 1))
        (fun _ s => (s.engine 0).clients 7 () = [1]) (by decide +kernel)
    obtain ⟨trace', s', hrun', hlabels', hsecond⟩ :=
      exists_labelled_run_of_execute (oneSubscription 2 0 0) next
        (start 1 : Forwarding (Fin 1) (Fin 1))
        (fun _ s => (s.engine 0).clients 7 () = [2]) (by decide +kernel)
    have hrequests : List.Forall₂ SameRequests (trace.map (·.2)) (trace'.map (·.2)) := by
      rw [hlabels, hlabels']
      exact .cons (.connect 0) (.cons (.request 0 _ fun _ => trivial) (.cons (.handle 0) .nil))
    have hsame := (hclaim trace trace' s s' hrun hrun' hrequests 0).1
    rw [Engine.clients] at hfirst hsecond
    rw [hsame, hsecond] at hfirst
    exact absurd hfirst (by decide)

/-- Two runs whose memory differs in the telemetry only end with the same clients. -/
theorem unset_fields_sent_oneSubscription :
    ∃ (trace trace' : List (Forwarding (Fin 1) (Fin 1) × ForwardingAction (Fin 1) (Fin 1)))
      (s s' : Forwarding (Fin 1) (Fin 1)),
      Run (Steps next) (start 1) trace s ∧ Run (Steps next) (start 1) trace' s' ∧
        (s.engine 0).clients 7 () = [1] ∧ SameSubscriptions s s' := by
  obtain ⟨trace, s, hrun, hlabels, hclients⟩ :=
    exists_labelled_run_of_execute (oneSubscription 1 0 0) next
      (start 1 : Forwarding (Fin 1) (Fin 1))
      (fun _ s => (s.engine 0).clients 7 () = [1]) (by decide +kernel)
  obtain ⟨trace', s', hrun', hlabels', -⟩ :=
    exists_labelled_run_of_execute (oneSubscription 1 0 0) next
      (start 1 : Forwarding (Fin 1) (Fin 1)) (fun _ _ => True) (by decide +kernel)
  have hsame : List.Forall₂ SameClients (trace.map (·.2)) (trace'.map (·.2)) := by
    rw [hlabels, hlabels']
    exact .cons (.connect 0) (.cons (.request 0 _ fun _ => rfl) (.cons (.handle 0) .nil))
  exact ⟨trace, trace', s, s', hrun, hrun', hclients,
    (unset_fields_sent (P := Unit) (N := Unit)).2.2.2 1 trace trace' s s' hrun hrun' hsame⟩

end Forwarding

end Firehose.Cluster
