import Firehose.Cluster.Node
import Firehose.Cluster.State

set_option autoImplicit false

/-!
# Every run of the system is a run of each of its servers

What one server sees of a step of the system is nothing at all or one step of that
server by itself.  An invariant of a single server is therefore proved once, for the
server alone, and holds in the system; what is left to prove about the system is how the
histories at the two ends of a channel fit together, and a channel says that itself.
-/

namespace Firehose.Cluster

open Firehose.Api Firehose.Foundation Firehose.Node
open Function (update)

variable {B P E N C : Type}

namespace State

/-- A pump with its outgoing history. -/
def pumpNode (s : State B P E N C) (p : P) : PumpNode E where
  pump := s.pump p
  prepares := fun e => (s.prepares (p, e)).sent

/-- An engine with its histories. -/
def engineNode (s : State B P E N C) (e : E) : EngineNode P N where
  engine := s.engine e
  prepares := fun p => (s.prepares (p, e)).received
  updates := fun n => (s.updates (n, e)).received
  acks := fun p => (s.acks (e, p)).sent
  fanouts := fun n => (s.fanouts (e, n)).sent

/-- A nuzzle with its histories. -/
def nuzzleNode (s : State B P E N C) (n : N) : NuzzleNode E C where
  nuzzle := s.nuzzle n
  fanouts := fun e => (s.fanouts (e, n)).received
  updates := fun e => (s.updates (n, e)).sent
  deliveries := fun c => (s.deliveries (n, c)).sent

variable [DecidableEq B] [DecidableEq P] [DecidableEq E] [DecidableEq N] [DecidableEq C]

/-- What a step is to one pump. -/
def pumpEvent (p : P) (s : State B P E N C) : Action B P E N C → Option (PumpEvent E)
  | .pumpConnectToEngine p' e => if p' = p then some (.connect e) else none
  | .pumpOnPublish b p' memory =>
      if p' = p then (s.publishes (b, p)).queue.head?.map (.publish memory) else none
  | _ => none

/-- What a step is to one engine. -/
def engineEvent (e : E) (s : State B P E N C) : Action B P E N C → Option (EngineEvent P N)
  | .engineOnPrepare p e' ackMemory publishMemory =>
      if e' = e then
        (s.prepares (p, e)).queue.head?.map (.prepare p ackMemory publishMemory)
      else none
  | .engineOnUpdate n e' =>
      if e' = e then (s.updates (n, e)).queue.head?.map (.update n) else none
  | _ => none

/-- What a step is to one nuzzle. -/
def nuzzleEvent (n : N) (s : State B P E N C) : Action B P E N C → Option (NuzzleEvent E C)
  | .nuzzleConnectToEngine n' e => if n' = n then some (.connect e) else none
  | .nuzzleOnPublish e n' =>
      if n' = n then (s.fanouts (e, n)).queue.head?.map (.publish e) else none
  | .nuzzleOnUpdate c n' memory =>
      if n' = n then (s.requests (c, n)).queue.head?.map (.update c memory) else none
  | _ => none

/-! ## The pump's view -/

theorem pumpNode_simulates (p : P) (s : State B P E N C) (a : Action B P E N C)
    (s' : State B P E N C) (h : Steps next s a s') :
    Simulates (Steps PumpNode.next) (pumpNode · p) (pumpEvent p) s a s' := by
  unfold Steps at h
  cases a with
  | connectToPump =>
      obtain rfl := connectToPump_next h
      rfl
  | pumpConnectToEngine p' e =>
      obtain ⟨hfresh, rfl⟩ := pumpConnectToEngine_next h
      by_cases hp : p' = p
      · subst hp
        simp [Simulates, pumpEvent, Steps, PumpNode.next, pumpNode, hfresh]
      · simp [Simulates, pumpEvent, pumpNode, hp, Ne.symm hp]
  | nuzzleConnectToEngine =>
      obtain ⟨-, rfl⟩ := nuzzleConnectToEngine_next h
      rfl
  | connectToNuzzle =>
      obtain rfl := connectToNuzzle_next h
      rfl
  | publish =>
      obtain ⟨_, _, _, -, rfl⟩ := publish_next h
      rfl
  | updateSubscribtion =>
      obtain ⟨_, _, -, rfl⟩ := updateSubscribtion_next h
      rfl
  | pumpOnPublish b p' memory =>
      obtain ⟨m, ch, r, hpop, rfl, rfl⟩ := pumpOnPublish_next h
      by_cases hp : p' = p
      · subst hp
        simp [Simulates, pumpEvent, Steps, PumpNode.next, pumpNode,
          Channel.head?_of_pop? hpop, Channel.sent_post_self]
      · simp [Simulates, pumpEvent, pumpNode, hp, Ne.symm hp,
          Channel.sent_post_ne _ _ _ (Ne.symm hp)]
  | pumpOnPrepareAck e p' =>
      obtain ⟨m, ch, -, rfl⟩ := pumpOnPrepareAck_next h
      simp [Simulates, pumpEvent, pumpNode, Pump.onPrepareAckReceive]
  | engineOnPrepare p' e ackMemory publishMemory =>
      obtain ⟨m, ch, r, hpop, -, rfl⟩ := engineOnPrepare_next h
      simp [Simulates, pumpEvent, pumpNode, Channel.sent_update_pop? hpop]
  | engineOnUpdate =>
      obtain ⟨_, _, _, -, -, rfl⟩ := engineOnUpdate_next h
      rfl
  | nuzzleOnPublish =>
      obtain ⟨_, _, _, -, -, rfl⟩ := nuzzleOnPublish_next h
      rfl
  | nuzzleOnUpdate =>
      obtain ⟨_, _, _, _, -, -, rfl⟩ := nuzzleOnUpdate_next h
      rfl
  | consumerOnPublish =>
      obtain ⟨_, _, -, rfl⟩ := consumerOnPublish_next h
      rfl

/-! ## The engine's view -/

theorem engineNode_simulates (e : E) (s : State B P E N C) (a : Action B P E N C)
    (s' : State B P E N C) (h : Steps next s a s') :
    Simulates (Steps EngineNode.next) (engineNode · e) (engineEvent e) s a s' := by
  unfold Steps at h
  cases a with
  | connectToPump =>
      obtain rfl := connectToPump_next h
      rfl
  | pumpConnectToEngine =>
      obtain ⟨-, rfl⟩ := pumpConnectToEngine_next h
      rfl
  | nuzzleConnectToEngine =>
      obtain ⟨-, rfl⟩ := nuzzleConnectToEngine_next h
      rfl
  | connectToNuzzle =>
      obtain rfl := connectToNuzzle_next h
      rfl
  | publish =>
      obtain ⟨_, _, _, -, rfl⟩ := publish_next h
      rfl
  | updateSubscribtion =>
      obtain ⟨_, _, -, rfl⟩ := updateSubscribtion_next h
      rfl
  | pumpOnPublish b p memory =>
      obtain ⟨m, ch, r, -, -, rfl⟩ := pumpOnPublish_next h
      simp [Simulates, engineEvent, engineNode]
  | pumpOnPrepareAck e' p =>
      obtain ⟨m, ch, hpop, rfl⟩ := pumpOnPrepareAck_next h
      simp [Simulates, engineEvent, engineNode, Channel.sent_update_pop? hpop]
  | engineOnPrepare p e' ackMemory publishMemory =>
      obtain ⟨m, ch, r, hpop, rfl, rfl⟩ := engineOnPrepare_next h
      by_cases he : e' = e
      · subst he
        simp only [Simulates, engineEvent, if_true, Channel.head?_of_pop? hpop,
          Option.map_some, Steps, EngineNode.next, engineNode, Option.some.injEq,
          EngineNode.mk.injEq, Function.update_self, Channel.sent_post_self, and_true,
          true_and]
        exact (Channel.received_update_pop? (Prod.mk_left_injective e') hpop).symm
      · simp [Simulates, engineEvent, engineNode, he, Ne.symm he,
          Channel.sent_post_ne _ _ _ (Ne.symm he)]
  | engineOnUpdate n e' =>
      obtain ⟨m, ch, engine, hpop, hup, rfl⟩ := engineOnUpdate_next h
      by_cases he : e' = e
      · subst he
        simp only [Simulates, engineEvent, if_true, Channel.head?_of_pop? hpop,
          Option.map_some, Steps, EngineNode.next, engineNode, hup, Option.some.injEq,
          EngineNode.mk.injEq, Function.update_self, and_true, true_and]
        exact (Channel.received_update_pop? (Prod.mk_left_injective e') hpop).symm
      · simp [Simulates, engineEvent, engineNode, he, Ne.symm he]
  | nuzzleOnPublish e' n =>
      obtain ⟨m, ch, r, hpop, -, rfl⟩ := nuzzleOnPublish_next h
      simp [Simulates, engineEvent, engineNode, Channel.sent_update_pop? hpop]
  | nuzzleOnUpdate c n memory =>
      obtain ⟨m, ch, nuzzle, out, -, -, rfl⟩ := nuzzleOnUpdate_next h
      simp [Simulates, engineEvent, engineNode]
  | consumerOnPublish =>
      obtain ⟨_, _, -, rfl⟩ := consumerOnPublish_next h
      rfl

/-! ## The nuzzle's view -/

theorem nuzzleNode_simulates (n : N) (s : State B P E N C) (a : Action B P E N C)
    (s' : State B P E N C) (h : Steps next s a s') :
    Simulates (Steps NuzzleNode.next) (nuzzleNode · n) (nuzzleEvent n) s a s' := by
  unfold Steps at h
  cases a with
  | connectToPump =>
      obtain rfl := connectToPump_next h
      rfl
  | pumpConnectToEngine =>
      obtain ⟨-, rfl⟩ := pumpConnectToEngine_next h
      rfl
  | nuzzleConnectToEngine n' e =>
      obtain ⟨hfresh, rfl⟩ := nuzzleConnectToEngine_next h
      by_cases hn : n' = n
      · subst hn
        simp [Simulates, nuzzleEvent, Steps, NuzzleNode.next, nuzzleNode, hfresh]
      · simp [Simulates, nuzzleEvent, nuzzleNode, hn, Ne.symm hn]
  | connectToNuzzle =>
      obtain rfl := connectToNuzzle_next h
      rfl
  | publish =>
      obtain ⟨_, _, _, -, rfl⟩ := publish_next h
      rfl
  | updateSubscribtion =>
      obtain ⟨_, _, -, rfl⟩ := updateSubscribtion_next h
      rfl
  | pumpOnPublish =>
      obtain ⟨_, _, _, -, -, rfl⟩ := pumpOnPublish_next h
      rfl
  | pumpOnPrepareAck =>
      obtain ⟨_, _, -, rfl⟩ := pumpOnPrepareAck_next h
      rfl
  | engineOnPrepare p e ackMemory publishMemory =>
      obtain ⟨m, ch, r, -, -, rfl⟩ := engineOnPrepare_next h
      simp [Simulates, nuzzleEvent, nuzzleNode]
  | engineOnUpdate n' e =>
      obtain ⟨m, ch, engine, hpop, -, rfl⟩ := engineOnUpdate_next h
      simp [Simulates, nuzzleEvent, nuzzleNode, Channel.sent_update_pop? hpop]
  | nuzzleOnPublish e n' =>
      obtain ⟨m, ch, r, hpop, rfl, rfl⟩ := nuzzleOnPublish_next h
      by_cases hn : n' = n
      · subst hn
        simp only [Simulates, nuzzleEvent, if_true, Channel.head?_of_pop? hpop,
          Option.map_some, Steps, NuzzleNode.next, nuzzleNode, Option.some.injEq,
          NuzzleNode.mk.injEq, Function.update_self, Channel.sent_post_self, and_true,
          true_and]
        exact (Channel.received_update_pop? (Prod.mk_left_injective n') hpop).symm
      · simp [Simulates, nuzzleEvent, nuzzleNode, hn, Ne.symm hn,
          Channel.sent_post_ne _ _ _ (Ne.symm hn)]
  | nuzzleOnUpdate c n' memory =>
      obtain ⟨m, ch, nuzzle, out, hpop, hup, rfl⟩ := nuzzleOnUpdate_next h
      by_cases hn : n' = n
      · subst hn
        simp [Simulates, nuzzleEvent, Channel.head?_of_pop? hpop, Steps,
          NuzzleNode.next, nuzzleNode, hup, Channel.sent_post_self]
      · simp [Simulates, nuzzleEvent, nuzzleNode, hn, Ne.symm hn,
          Channel.sent_post_ne _ _ _ (Ne.symm hn)]
  | consumerOnPublish n' c now now' =>
      obtain ⟨m, ch, hpop, rfl⟩ := consumerOnPublish_next h
      simp [Simulates, nuzzleEvent, nuzzleNode, Channel.sent_update_pop? hpop]

/-! ## The channels of the clients -/

/-- Only a publish and its handler touch the channels of the publishers, and only a nuzzle
that delivers and a consumer those of the consumers. -/
theorem clientChannels_next {s s' : State B P E N C} {a : Action B P E N C}
    (h : next s a = some s') :
    (s'.publishes = s.publishes ∨ (∃ b now request, a = .publish b now request) ∨
      ∃ b p memory, a = .pumpOnPublish b p memory) ∧
    (s'.deliveries = s.deliveries ∨ (∃ e n, a = .nuzzleOnPublish e n) ∨
      ∃ n c now now', a = .consumerOnPublish n c now now') := by
  cases a with
  | connectToPump =>
      obtain rfl := connectToPump_next h
      exact ⟨Or.inl rfl, Or.inl rfl⟩
  | pumpConnectToEngine =>
      obtain ⟨-, rfl⟩ := pumpConnectToEngine_next h
      exact ⟨Or.inl rfl, Or.inl rfl⟩
  | nuzzleConnectToEngine =>
      obtain ⟨-, rfl⟩ := nuzzleConnectToEngine_next h
      exact ⟨Or.inl rfl, Or.inl rfl⟩
  | connectToNuzzle =>
      obtain rfl := connectToNuzzle_next h
      exact ⟨Or.inl rfl, Or.inl rfl⟩
  | publish b now request =>
      obtain ⟨_, _, _, -, rfl⟩ := publish_next h
      exact ⟨Or.inr (Or.inl ⟨b, now, request, rfl⟩), Or.inl rfl⟩
  | updateSubscribtion =>
      obtain ⟨_, _, -, rfl⟩ := updateSubscribtion_next h
      exact ⟨Or.inl rfl, Or.inl rfl⟩
  | pumpOnPublish b p memory =>
      obtain ⟨_, _, _, -, -, rfl⟩ := pumpOnPublish_next h
      exact ⟨Or.inr (Or.inr ⟨b, p, memory, rfl⟩), Or.inl rfl⟩
  | pumpOnPrepareAck =>
      obtain ⟨_, _, -, rfl⟩ := pumpOnPrepareAck_next h
      exact ⟨Or.inl rfl, Or.inl rfl⟩
  | engineOnPrepare =>
      obtain ⟨_, _, _, -, -, rfl⟩ := engineOnPrepare_next h
      exact ⟨Or.inl rfl, Or.inl rfl⟩
  | engineOnUpdate =>
      obtain ⟨_, _, _, -, -, rfl⟩ := engineOnUpdate_next h
      exact ⟨Or.inl rfl, Or.inl rfl⟩
  | nuzzleOnPublish e n =>
      obtain ⟨_, _, _, -, -, rfl⟩ := nuzzleOnPublish_next h
      exact ⟨Or.inl rfl, Or.inr (Or.inl ⟨e, n, rfl⟩)⟩
  | nuzzleOnUpdate =>
      obtain ⟨_, _, _, _, -, -, rfl⟩ := nuzzleOnUpdate_next h
      exact ⟨Or.inl rfl, Or.inl rfl⟩
  | consumerOnPublish n c now now' =>
      obtain ⟨_, _, -, rfl⟩ := consumerOnPublish_next h
      exact ⟨Or.inl rfl, Or.inr (Or.inr ⟨n, c, now, now', rfl⟩)⟩

/-! ## Projected runs -/

section Runs

variable {groupSize : UInt16} {trace : Trace B P E N C} {s : State B P E N C}

theorem Runs.pumpNode (h : Runs groupSize trace s) (p : P) :
    Run (Steps PumpNode.next) PumpNode.start
      (projectTrace (State.pumpNode · p) (pumpEvent p) trace) (s.pumpNode p) :=
  Run.project (pumpNode_simulates p) h

theorem Runs.engineNode (h : Runs groupSize trace s) (e : E) :
    Run (Steps EngineNode.next) EngineNode.start
      (projectTrace (State.engineNode · e) (engineEvent e) trace) (s.engineNode e) :=
  Run.project (engineNode_simulates e) h

theorem Runs.nuzzleNode (h : Runs groupSize trace s) (n : N) :
    Run (Steps NuzzleNode.next) (NuzzleNode.start groupSize)
      (projectTrace (State.nuzzleNode · n) (nuzzleEvent n) trace) (s.nuzzleNode n) :=
  Run.project (nuzzleNode_simulates n) h

/-- The run around its step number `i`. -/
theorem Runs.cut {x : State B P E N C × Action B P E N C} {i : Nat}
    (h : Runs groupSize trace s) (hx : (trace)[i]? = some x) :
    ∃ s', Runs groupSize (trace.take i) x.1 ∧ next x.1 x.2 = some s' ∧
      Run (Steps next) s' (trace.drop (i + 1)) s :=
  Run.cut h hx

end Runs

end State

end Firehose.Cluster
