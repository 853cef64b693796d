import Firehose.Cluster.EngineRun
import Firehose.Foundation.Registry

set_option autoImplicit false

/-!
# Connections that have been closed

`message_connection::close` ends with a call of `closed()`, which in every connection
class of an engine, a nuzzle and a pump prints a line at most.  So the lists of a server
keep a connection that has been closed, unless it was on no list at the time and is put
on none afterwards.
-/

namespace Firehose.Cluster

open Firehose.Api Firehose.Foundation Firehose.Node

/-! ## The engine -/

namespace EngineNode

variable {P N : Type} [DecidableEq P] [DecidableEq N]

/-- `NuzzleConnection::closed`. -/
def closed (node : EngineNode P N) (_connection : N) : EngineNode P N := node

/-- A nuzzle connection is an entry of `subscriptions` or a key in
`client_subscriptions`. -/
def Listed (node : EngineNode P N) (n : N) : Prop :=
  ∃ topic, n ∈ node.engine.subscriptions.get topic ∨ node.engine.Recorded topic n

/-- The nuzzle connections a prepare is published to. -/
def published (node : EngineNode P N) : EngineEvent P N → List N
  | .prepare p ackMemory publishMemory m =>
      (node.engine.onPrepareReceive ackMemory publishMemory p
        (Engine.MsgPrepareReqRx.get m)).2.2.map (·.1)
  | _ => []

/-- The nuzzle connection that subscribes. -/
def subscriber : EngineEvent P N → Option N
  | .update n m => if m.get.isSubscribe then some n else none
  | _ => none

/-- The engine as a server with lists of its nuzzle connections. -/
def registry : Registry (EngineNode P N) (EngineEvent P N) N where
  next := next
  closed := closed
  Listed := Listed
  sends := published
  adds := subscriber

theorem listed_of_subscriber {node node' : EngineNode P N} {event : EngineEvent P N} {n : N}
    (h : Steps next node event node') (hsub : subscriber event = some n) :
    Listed node' n := by
  cases event with
  | prepare | accept => simp [subscriber] at hsub
  | update n' m =>
      obtain ⟨engine, hup, rfl⟩ := update_next h
      rcases Engine.onUpdateSubscriptionReceive_cases hup with ⟨hs, rfl⟩ | ⟨hs, -⟩
      · simp only [subscriber, hs, if_true, Option.some.injEq] at hsub
        subst hsub
        exact ⟨m.get.topicId, Or.inl (by simp [Engine.subscribe_subscriptions_get])⟩
      · simp [subscriber, hs] at hsub

theorem listed_of_next {node node' : EngineNode P N} {event : EngineEvent P N} {n : N}
    (h : Steps next node event node') (hlisted : Listed node' n) :
    Listed node n ∨ subscriber event = some n := by
  cases event with
  | prepare p ackMemory publishMemory m =>
      simp only [Steps, next, Option.some.injEq] at h
      subst h
      obtain ⟨topic, hentry | hrecorded⟩ := hlisted
      · exact Or.inl ⟨topic, Or.inl (by simpa using hentry)⟩
      · exact Or.inl ⟨topic, Or.inr hrecorded⟩
  | accept p request =>
      simp only [Steps, next, Option.some.injEq] at h
      subst h
      exact Or.inl hlisted
  | update n' m =>
      obtain ⟨engine, hup, rfl⟩ := update_next h
      obtain ⟨topic, hentry | hrecorded⟩ := hlisted
      · rcases Engine.onUpdateSubscriptionReceive_cases hup with ⟨hs, rfl⟩ | ⟨-, hun⟩
        · simp only [Engine.subscribe_subscriptions_get] at hentry
          split at hentry
          · rcases List.mem_append.mp hentry with hold | hnew
            · exact Or.inl ⟨topic, Or.inl hold⟩
            · exact Or.inr (by simp [subscriber, hs, List.mem_singleton.mp hnew])
          · exact Or.inl ⟨topic, Or.inl hentry⟩
        · simp only [(Engine.unsubscribe_eq_some hun).2.2.2 topic] at hentry
          split at hentry
          · exact Or.inl ⟨topic, Or.inl (List.mem_of_mem_erase hentry)⟩
          · exact Or.inl ⟨topic, Or.inl hentry⟩
      · rcases Engine.onUpdateSubscriptionReceive_cases hup with ⟨hs, rfl⟩ | ⟨-, hun⟩
        · rcases Engine.recorded_of_subscribe hrecorded with hold | rfl
          · exact Or.inl ⟨topic, Or.inr hold⟩
          · exact Or.inr (by simp [subscriber, hs])
        · exact Or.inl ⟨topic, Or.inr (Engine.recorded_of_unsubscribe hun hrecorded)⟩

theorem registry_lawful : (registry : Registry (EngineNode P N) (EngineEvent P N) N).Lawful where
  closed_eq := fun _ _ => rfl
  listed_of_adds := listed_of_subscriber
  listed_of_next := listed_of_next
  listed_of_sends := by
    intro node event node' n _ hn
    cases event with
    | prepare p ackMemory publishMemory m =>
        simp only [registry, published, Engine.onPrepareReceive, List.map_map, List.mem_map,
          Function.comp_apply] at hn
        obtain ⟨nuzzle, hmem, rfl⟩ := hn
        exact ⟨m.get.topicId, Or.inl hmem⟩
    | accept | update => simp [registry, published] at hn

end EngineNode

/-! ## The nuzzle -/

namespace NuzzleNode

variable {E C : Type} [DecidableEq E] [DecidableEq C]

/-- `EngineConnection::closed` and `ConsumerConnection::closed`. -/
def closed (node : NuzzleNode E C) (_connection : E ⊕ C) : NuzzleNode E C := node

/-- An engine connection is one of `engine_connections`, a consumer connection an entry of
`subscriptions`. -/
def Listed (node : NuzzleNode E C) : E ⊕ C → Prop
  | .inl e => e ∈ node.nuzzle.engineConnections
  | .inr c => ∃ topic, c ∈ node.nuzzle.subscriptions.get topic

/-- The connections that an event makes the nuzzle send to: copies are delivered, updates
are forwarded. -/
def sendsTo (node : NuzzleNode E C) : NuzzleEvent E C → List (E ⊕ C)
  | .publish e m =>
      (node.nuzzle.onPublishReceive e (Nuzzle.MsgPublishReqRx.get m)).2.map fun o => .inr o.1
  | .update c memory m =>
      match node.nuzzle.onUpdateSubscriptionReceive memory c
          (Nuzzle.MsgUpdateSubscriptionReqRx.get m) with
      | none => []
      | some (_, out) => out.map fun o => .inl o.1
  | .connect _ => []

/-- The connection that an event adds. -/
def added : NuzzleEvent E C → Option (E ⊕ C)
  | .connect e => some (.inl e)
  | .update c _ m => if m.get.isSubscribe then some (.inr c) else none
  | .publish _ _ => none

/-- The nuzzle as a server with lists of its connections. -/
def registry : Registry (NuzzleNode E C) (NuzzleEvent E C) (E ⊕ C) where
  next := next
  closed := closed
  Listed := Listed
  sends := sendsTo
  adds := added

theorem listed_of_added {node node' : NuzzleNode E C} {event : NuzzleEvent E C} {i : E ⊕ C}
    (h : Steps next node event node') (hadd : added event = some i) : Listed node' i := by
  cases event with
  | connect e =>
      obtain ⟨-, rfl⟩ := connect_next h
      simp only [added, Option.some.injEq] at hadd
      subst hadd
      simp [Listed, Nuzzle.connectToEngine]
  | publish e m => simp [added] at hadd
  | update c memory m =>
      obtain ⟨-, -, -, hown⟩ := updates_next_update h
      by_cases hs : m.get.isSubscribe = true
      · simp only [added, hs, if_true, Option.some.injEq] at hadd
        subst hadd
        simp only [hs, if_true] at hown
        exact ⟨m.topicId, by simp [hown]⟩
      · simp [added, hs] at hadd

theorem listed_of_next {node node' : NuzzleNode E C} {event : NuzzleEvent E C} {i : E ⊕ C}
    (h : Steps next node event node') (hlisted : Listed node' i) :
    Listed node i ∨ added event = some i := by
  cases event with
  | connect e =>
      obtain ⟨-, rfl⟩ := connect_next h
      cases i with
      | inl e' =>
          rcases List.mem_append.mp hlisted with hold | hnew
          · exact Or.inl hold
          · exact Or.inr (by simp [added, List.mem_singleton.mp hnew])
      | inr c => exact Or.inl hlisted
  | publish e m =>
      obtain ⟨hconns, -, hsubs⟩ := updates_next_publish h
      cases i with
      | inl e' => exact Or.inl (by simpa [Listed, hconns] using hlisted)
      | inr c => exact Or.inl (by simpa [Listed, hsubs] using hlisted)
  | update c memory m =>
      obtain ⟨hconns, -, hother, hown⟩ := updates_next_update h
      cases i with
      | inl e' => exact Or.inl (by simpa [Listed, hconns] using hlisted)
      | inr c' =>
          obtain ⟨topic, hentry⟩ := hlisted
          by_cases ht : topic = m.topicId
          · subst ht
            by_cases hs : m.get.isSubscribe = true
            · simp only [hs, if_true] at hown
              rw [hown] at hentry
              rcases List.mem_append.mp hentry with hold | hnew
              · exact Or.inl ⟨m.topicId, hold⟩
              · exact Or.inr (by simp [added, hs, List.mem_singleton.mp hnew])
            · simp only [hs, Bool.false_eq_true, if_false] at hown
              rw [hown.2] at hentry
              exact Or.inl ⟨m.topicId, List.mem_of_mem_erase hentry⟩
          · exact Or.inl ⟨topic, hother topic ht ▸ hentry⟩

theorem registry_lawful : (registry : Registry (NuzzleNode E C) (NuzzleEvent E C)
    (E ⊕ C)).Lawful where
  closed_eq := fun _ _ => rfl
  listed_of_adds := listed_of_added
  listed_of_next := listed_of_next
  listed_of_sends := by
    intro node event node' i _ hi
    cases event with
    | connect e => simp [registry, sendsTo] at hi
    | publish e m =>
        simp only [registry, sendsTo, Nuzzle.onPublishReceive, List.mem_map] at hi
        obtain ⟨o, ho, rfl⟩ := hi
        split at ho
        · obtain ⟨consumer, hmem, rfl⟩ := List.mem_map.mp ho
          exact ⟨m.get.topicId, hmem⟩
        · simp at ho
    | update c memory m =>
        simp only [registry, sendsTo] at hi
        split at hi
        · simp at hi
        · rename_i nuzzle out hup
          obtain ⟨o, ho, rfl⟩ := List.mem_map.mp hi
          rw [(Nuzzle.onUpdateSubscriptionReceive_eq_some hup).2.2.2.1] at ho
          obtain ⟨e, hmem, rfl⟩ := List.mem_map.mp ho
          exact hmem

end NuzzleNode

/-! ## The pump -/

/-- A pump with both of its static lists of connections. -/
structure PumpLists (E Q : Type) where
  pump : Pump E
  publisherConnections : List Q

inductive PumpListsEvent (E Q : Type)
  /-- `Pump::connect_to_engine` -/
  | connect (e : E)
  /-- `PublisherServer::handle_accept` -/
  | accept (q : Q)
  /-- `Pump::on_publish_receive` -/
  | publish (memory : RequestPrepare) (m : RequestPublishProto)

namespace PumpLists

variable {E Q : Type} [DecidableEq E] [DecidableEq Q]

def start : PumpLists E Q := ⟨.new, []⟩

/-- Every connection that is added is a new object. -/
def next (lists : PumpLists E Q) : PumpListsEvent E Q → Option (PumpLists E Q)
  | .connect e =>
      if e ∈ lists.pump.engineConnections then none
      else some { lists with pump := lists.pump.connectToEngine e }
  | .accept q =>
      if q ∈ lists.publisherConnections then none
      else some { lists with publisherConnections := lists.publisherConnections ++ [q] }
  | .publish memory m =>
      some { lists with
        pump := (lists.pump.onPublishReceive memory (Pump.MsgPublishReqRx.get m)).1 }

/-- `EngineConnection::closed` and `PublisherConnection::closed`. -/
def closed (lists : PumpLists E Q) (_connection : E ⊕ Q) : PumpLists E Q := lists

def Listed (lists : PumpLists E Q) : E ⊕ Q → Prop
  | .inl e => e ∈ lists.pump.engineConnections
  | .inr q => q ∈ lists.publisherConnections

/-- The engine connections a publish is prepared on. -/
def prepared (lists : PumpLists E Q) : PumpListsEvent E Q → List (E ⊕ Q)
  | .publish memory m =>
      (lists.pump.onPublishReceive memory (Pump.MsgPublishReqRx.get m)).2.map fun o => .inl o.1
  | _ => []

/-- The connection that an event adds. -/
def added : PumpListsEvent E Q → Option (E ⊕ Q)
  | .connect e => some (.inl e)
  | .accept q => some (.inr q)
  | .publish _ _ => none

/-- The pump as a server with lists of its connections. -/
def registry : Registry (PumpLists E Q) (PumpListsEvent E Q) (E ⊕ Q) where
  next := next
  closed := closed
  Listed := Listed
  sends := prepared
  adds := added

/-- A step lists what was listed and what the event adds. -/
theorem listed_next_iff {lists lists' : PumpLists E Q} {event : PumpListsEvent E Q}
    {i : E ⊕ Q} (h : next lists event = some lists') :
    Listed lists' i ↔ Listed lists i ∨ added event = some i := by
  cases event with
  | connect e =>
      simp only [next] at h
      split at h
      · simp at h
      · simp only [Option.some.injEq] at h
        subst h
        cases i <;> simp [Listed, added, Pump.connectToEngine, eq_comm]
  | accept q =>
      simp only [next] at h
      split at h
      · simp at h
      · simp only [Option.some.injEq] at h
        subst h
        cases i <;> simp [Listed, added, eq_comm]
  | publish memory m =>
      simp only [next, Option.some.injEq] at h
      subst h
      cases i <;> simp [Listed, added, Pump.onPublishReceive]

theorem registry_lawful : (registry : Registry (PumpLists E Q) (PumpListsEvent E Q)
    (E ⊕ Q)).Lawful where
  closed_eq := fun _ _ => rfl
  listed_of_adds := fun h hadd => (listed_next_iff h).mpr (Or.inr hadd)
  listed_of_next := fun h => (listed_next_iff h).mp
  listed_of_sends := by
    intro lists event lists' i _ hi
    cases event with
    | connect | accept => simp [registry, prepared] at hi
    | publish memory m =>
        simp only [registry, prepared, Pump.onPublishReceive, List.map_map, List.mem_map,
          Function.comp_apply] at hi
        obtain ⟨e, hmem, rfl⟩ := hi
        exact hmem

end PumpLists

/-! ## All three -/

section Servers

variable {P N E C Q : Type}
variable [DecidableEq P] [DecidableEq N] [DecidableEq E] [DecidableEq C] [DecidableEq Q]

/-- An engine, a nuzzle and a pump have forgotten the connections that were closed, in
every state of a run, exactly when each connection was on no list when it was closed and
was put on none after. -/
theorem closed_forgotten_iff :
    (∀ trace s, Run (Steps (EngineNode.registry (P := P) (N := N)).step)
        ⟨EngineNode.start, []⟩ trace s →
      (EngineNode.registry.Forgets trace s ↔
        ∀ x ∈ trace, EngineNode.registry.Careful x.1 x.2)) ∧
    (∀ groupSize trace s, Run (Steps (NuzzleNode.registry (E := E) (C := C)).step)
        ⟨NuzzleNode.start groupSize, []⟩ trace s →
      (NuzzleNode.registry.Forgets trace s ↔
        ∀ x ∈ trace, NuzzleNode.registry.Careful x.1 x.2)) ∧
    (∀ trace s, Run (Steps (PumpLists.registry (E := E) (Q := Q)).step)
        ⟨PumpLists.start, []⟩ trace s →
      (PumpLists.registry.Forgets trace s ↔
        ∀ x ∈ trace, PumpLists.registry.Careful x.1 x.2)) :=
  ⟨fun _ _ h => EngineNode.registry_lawful.forgets_iff h,
    fun _ _ _ h => NuzzleNode.registry_lawful.forgets_iff h,
    fun _ _ h => PumpLists.registry_lawful.forgets_iff h⟩

end Servers

/-- A nuzzle connection subscribes and is closed, and then a prepare arrives. -/
def subscribeThenClose {P N : Type} (p : P) (n : N) :
    List (Registry.Event (EngineEvent P N) N) :=
  [.handle (.update n (RequestUpdateSubscription.on 7 1).set), .close n,
    .handle (.prepare p default default { (default : RequestPrepareProto) with topicId := 7 })]

theorem subscribeThenClose_not_forgets :
    ¬ ∀ (trace : List (Registry.State (EngineNode (Fin 1) (Fin 1)) (Fin 1) ×
        Registry.Event (EngineEvent (Fin 1) (Fin 1)) (Fin 1)))
      (s : Registry.State (EngineNode (Fin 1) (Fin 1)) (Fin 1)),
        Run (Steps EngineNode.registry.step) ⟨EngineNode.start, []⟩ trace s →
          EngineNode.registry.Forgets trace s := by
  intro hclaim
  obtain ⟨trace, s, hrun, hgone, hlisted⟩ :=
    exists_run_of_execute (subscribeThenClose 0 0) EngineNode.registry.step
      (⟨EngineNode.start, []⟩ : Registry.State (EngineNode (Fin 1) (Fin 1)) (Fin 1))
      (fun _ s => 0 ∈ s.gone ∧ 0 ∈ s.server.engine.subscriptions.get 7) (by decide +kernel)
  exact (hclaim trace s hrun).forgotten.2 0 hgone ⟨7, Or.inl hlisted⟩

/-- There a copy is queued on the closed connection, and both sides of the equivalence
fail. -/
theorem closed_forgotten_iff_subscribeThenClose :
    ∃ (trace : List (Registry.State (EngineNode (Fin 1) (Fin 1)) (Fin 1) ×
        Registry.Event (EngineEvent (Fin 1) (Fin 1)) (Fin 1)))
      (s : Registry.State (EngineNode (Fin 1) (Fin 1)) (Fin 1)),
        Run (Steps EngineNode.registry.step) ⟨EngineNode.start, []⟩ trace s ∧
        (s.gone = [0] ∧ (s.server.fanouts 0).length = 1) ∧
        (EngineNode.registry.Forgets trace s ↔
          ∀ x ∈ trace, EngineNode.registry.Careful x.1 x.2) := by
  obtain ⟨trace, s, hrun, hcopy⟩ :=
    exists_run_of_execute (subscribeThenClose 0 0) EngineNode.registry.step
      (⟨EngineNode.start, []⟩ : Registry.State (EngineNode (Fin 1) (Fin 1)) (Fin 1))
      (fun _ s => s.gone = [0] ∧ (s.server.fanouts 0).length = 1) (by decide +kernel)
  exact ⟨trace, s, hrun, hcopy,
    (closed_forgotten_iff (E := Fin 1) (C := Fin 1) (Q := Fin 1)).1 trace s hrun⟩

end Firehose.Cluster
