import Firehose.Cluster.EngineRun
import Firehose.Cluster.PumpRun

set_option autoImplicit false

/-!
# Replicas

What the message buffers of the engines hold: whether an acknowledged message stays,
whether two engines hold the same, and whether enough of them were sent a message.  The
first two fail for keys that two pumps have both given out.
-/

namespace Firehose.Cluster

open Firehose.Api Firehose.Foundation Firehose.Node
open Function (update)

/-! ## Durability at one engine -/

namespace EngineNode

variable {P N : Type} [DecidableEq P] [DecidableEq N]
variable {trace : List (EngineNode P N × EngineEvent P N)} {node node' : EngineNode P N}

/-- Whatever prepare has been answered with a success has its payload stored under its
key. -/
def Durable (node : EngineNode P N) : Prop :=
  ∀ (p : P) (k : Nat) (m : RequestPrepareProto) (ack : ResponsePrepareProto),
    (node.prepares p)[k]? = some m → (node.acks p)[k]? = some ack →
    (Pump.MsgPrepareRspRx.get ack).header.status = firehoseSuccess →
    ∃ r, node.engine.messageBuffer.find? m.key = some r ∧ r.message = m.message

/-- Prepares that carry one key carry one payload. -/
def PayloadsAgree (node : EngineNode P N) : Prop :=
  ∀ p q, ∀ m ∈ node.prepares p, ∀ m' ∈ node.prepares q, m.key = m'.key →
    m.message = m'.message

omit [DecidableEq P] [DecidableEq N] in
/-- An entry of the buffer is a prepare handled. -/
theorem Stored.mem (h : Stored node) {key : Key} {r : RequestPrepare}
    (hr : node.engine.messageBuffer.find? key = some r) :
    ∃ p, ∃ m ∈ node.prepares p, m.key = key ∧ r = m.get := by
  obtain ⟨p, m, hlast, rfl⟩ := h.last key r hr
  have hmem := List.mem_of_getLast? hlast
  obtain ⟨hm, hkey⟩ := List.mem_filter.mp hmem
  exact ⟨p, m, hm, of_decide_eq_true hkey, rfl⟩

/-- In each state the acknowledged payloads are stored exactly when no key has been given
to two payloads. -/
theorem durable_iff (h : Run (Steps next) start trace node) :
    Durable node ↔ PayloadsAgree node := by
  have hstored := stored_run h
  have hanswered := answered_run h
  constructor
  · intro hdurable
    -- both prepares have been answered, so both payloads are the one stored
    have hheld : ∀ p, ∀ m ∈ node.prepares p,
        ∃ r, node.engine.messageBuffer.find? m.key = some r ∧ r.message = m.message := by
      intro p m hm
      obtain ⟨k, hk, rfl⟩ := List.getElem_of_mem hm
      have hlen := (hanswered p).length_eq
      have hack := (hanswered p).get hk (hlen ▸ hk)
      exact hdurable p k _ _ (List.getElem?_eq_getElem hk)
        (List.getElem?_eq_getElem (hlen ▸ hk)) hack.1
    intro p q m hm m' hm' hkey
    obtain ⟨r, hr, hrm⟩ := hheld p m hm
    obtain ⟨r', hr', hrm'⟩ := hheld q m' hm'
    rw [hkey, hr', Option.some.injEq] at hr
    rw [← hrm, ← hrm', hr]
  · intro hagree p k m ack hm _ _
    have hmem := List.mem_of_getElem? hm
    obtain ⟨r, hr⟩ := hstored.kept p m hmem
    obtain ⟨q, m', hm', hkey, rfl⟩ := hstored.mem hr
    exact ⟨m'.get, hr, hagree q p m' hm' m hmem hkey⟩

/-- A prepare handled stays in the history. -/
theorem prepares_mono (h : Run (Steps next) node trace node') (p : P)
    {m : RequestPrepareProto} (hm : m ∈ node.prepares p) : m ∈ node'.prepares p := by
  refine h.keeps (I := fun node => m ∈ node.prepares p) hm ?_
  intro node event node' hmem hstep
  cases event with
  | prepare p' ackMemory publishMemory m' =>
      exact (mem_prepares_next_prepare hstep).mpr (Or.inl hmem)
  | accept | update => rwa [(messages_next hstep (by simp)).2.1]

/-- Acknowledged payloads stay stored all along a run exactly when no key is given to two
payloads in it. -/
theorem durable_throughout_iff (h : Run (Steps next) start trace node) :
    Throughout Durable trace node ↔ PayloadsAgree node := by
  constructor
  · exact fun hall => (durable_iff h).mp hall.2
  · intro hagree
    refine ⟨fun x hx => ?_, (durable_iff h).mpr hagree⟩
    obtain ⟨t₁, t₂, node', -, hbefore, hstep, hafter⟩ := h.around hx
    have hlater : ∀ p, ∀ m ∈ x.1.prepares p, m ∈ node.prepares p := fun p m hm =>
      prepares_mono ((Run.single hstep).trans hafter) p hm
    exact (durable_iff hbefore).mpr fun p q m hm m' hm' =>
      hagree p q m (hlater p m hm) m' (hlater q m' hm')

/-- Every pump numbers its own prepares 0, 1, 2, …. -/
def OwnNumbers (node : EngineNode P N) : Prop :=
  ∀ p, (node.prepares p).map (·.globalId) =
    (List.range (node.prepares p).length).map UInt64.ofNat

/-- Two pumps each send their first prepare, on one topic. -/
def twoFirstPrepares (p p' : P) : List (EngineEvent P N) :=
  [.prepare p default default { (default : RequestPrepareProto) with
      topicId := 7, message := [1] },
    .prepare p' default default { (default : RequestPrepareProto) with
      topicId := 7, message := [2] }]

theorem twoFirstPrepares_not_durable :
    ¬ ∀ (trace : List (EngineNode (Fin 2) (Fin 1) × EngineEvent (Fin 2) (Fin 1)))
      (node : EngineNode (Fin 2) (Fin 1)), Run (Steps next) start trace node →
        OwnNumbers node → Throughout Durable trace node := by
  intro hclaim
  obtain ⟨trace, node, hrun, hown, m, hm, m', hm', hkey, hne⟩ :=
    exists_run_of_execute (twoFirstPrepares 0 1) next
      (start : EngineNode (Fin 2) (Fin 1))
      (fun _ node => (∀ p, (node.prepares p).map (·.globalId) =
          (List.range (node.prepares p).length).map UInt64.ofNat) ∧
        ∃ m ∈ node.prepares 0, ∃ m' ∈ node.prepares 1,
          m.key = m'.key ∧ m.message ≠ m'.message)
      (by decide +kernel)
  exact hne ((durable_iff hrun).mp (hclaim trace node hrun hown).2 0 1 m hm m' hm' hkey)

theorem durable_throughout_iff_twoFirstPrepares :
    ∃ (trace : List (EngineNode (Fin 2) (Fin 1) × EngineEvent (Fin 2) (Fin 1)))
      (node : EngineNode (Fin 2) (Fin 1)), Run (Steps next) start trace node ∧
        trace.length = 2 ∧ (Throughout Durable trace node ↔ PayloadsAgree node) := by
  obtain ⟨trace, node, hrun, hlen⟩ := exists_run_of_execute (twoFirstPrepares 0 1) next
    (start : EngineNode (Fin 2) (Fin 1))
    (fun trace _ => trace.length = 2) (by decide +kernel)
  exact ⟨trace, node, hrun, hlen, durable_throughout_iff hrun⟩

end EngineNode

/-! ## Agreement of the engines -/

namespace State

variable {B P E N C : Type}
variable [DecidableEq B] [DecidableEq P] [DecidableEq E] [DecidableEq N] [DecidableEq C]
variable {groupSize : UInt16} {trace : Trace B P E N C} {s : State B P E N C}

/-- What an engine holds under a key. -/
def stored (s : State B P E N C) (e : E) (key : Key) : Option Content :=
  ((s.engine e).messageBuffer.find? key).map RequestPrepare.content

/-- Any two engines hold the same under every key. -/
def SameReplicas (s : State B P E N C) : Prop :=
  ∀ e e' key, s.stored e key = s.stored e' key

/-- Two pumps give one number to publishes on one topic only when these say the same. -/
def CollisionsAgree (trace : Trace B P E N C) : Prop :=
  ∀ p q : P, p ≠ q → ∀ (i j : Nat) (x y : Handled E), (handledBy p trace)[i]? = some x →
    (handledBy q trace)[j]? = some y → UInt64.ofNat i = UInt64.ofNat j →
    x.publish.topicId = y.publish.topicId → x.publish.content = y.publish.content

/-- Under that condition a key has one content over all the pumps but one. -/
theorem CollisionsAgree.content_eq (hagree : CollisionsAgree trace)
    (h : Runs groupSize trace s) {p q : P} (hpq : p ≠ q) {x y : Handled E}
    (hx : x ∈ handledBy p trace) (hy : y ∈ handledBy q trace) (hkey : x.key = y.key) :
    x.publish.content = y.publish.content := by
  obtain ⟨i, hi⟩ := List.mem_iff_getElem?.mp hx
  obtain ⟨j, hj⟩ := List.mem_iff_getElem?.mp hy
  have hidx := (h.numbered p).id_of_getElem? hi
  have hidy := (h.numbered q).id_of_getElem? hj
  rw [x.key_eq, y.key_eq, Prod.mk.injEq, hidx, hidy] at hkey
  exact hagree p q hpq i j x y hi hj hkey.2 hkey.1

/-- With no prepare in flight an engine connected from the start has handled every prepare
of a pump, in order. -/
theorem received_prepares (h : Runs groupSize trace s) {p : P} {e : E}
    (hconn : ∀ x ∈ handledBy p trace, e ∈ x.before.engineConnections)
    (hquiet : (s.prepares (p, e)).queue = []) :
    (s.engineNode e).prepares p = (handledBy p trace).map Handled.prepare := by
  rw [← (h.numbered p).prepares_eq_of_connected hconn]
  exact Channel.received_eq_sent hquiet

/-- With every engine connected to every pump from the start and no prepare in flight, the
engines agree, as long as colliding publishes of different pumps do. -/
theorem sameReplicas (h : Runs groupSize trace s) (hconn : ∀ p, AllConnected p trace)
    (hquiet : ∀ p e, (s.prepares (p, e)).queue = []) (hagree : CollisionsAgree trace) :
    SameReplicas s := by
  have hstored := fun e => EngineNode.stored_run (h.engineNode e)
  have hprep : ∀ e p, (s.engineNode e).prepares p = (handledBy p trace).map Handled.prepare :=
    fun e p => received_prepares h (fun x hx => hconn p x hx e) (hquiet p e)
  -- what one engine has stored, the other has handled and so stored as well
  have hkept : ∀ e e' key r, (s.engine e).messageBuffer.find? key = some r →
      ∃ r', (s.engine e').messageBuffer.find? key = some r' := by
    intro e e' key r hr
    obtain ⟨p, m, hm, rfl, -⟩ := (hstored e).mem hr
    rw [hprep, ← hprep e' p] at hm
    exact (hstored e').kept p m hm
  intro e e' key
  unfold stored
  cases hr : (s.engine e).messageBuffer.find? key with
  | none =>
      cases hr' : (s.engine e').messageBuffer.find? key with
      | none => rfl
      | some r' =>
          obtain ⟨r, hsome⟩ := hkept e' e key r' hr'
          rw [hr] at hsome
          cases hsome
  | some r =>
      obtain ⟨r', hr'⟩ := hkept e e' key r hr
      rw [hr', Option.map_some, Option.map_some, Option.some.injEq]
      obtain ⟨p, m, hlast, rfl⟩ := (hstored e).last key r hr
      obtain ⟨q, m', hlast', rfl⟩ := (hstored e').last key r' hr'
      by_cases hpq : p = q
      · -- one pump's prepares come in one order at both engines
        subst hpq
        rw [hprep e p, ← hprep e' p, hlast', Option.some.injEq] at hlast
        rw [hlast]
      · obtain ⟨hm, hkey⟩ := List.mem_filter.mp (List.mem_of_getLast? hlast)
        obtain ⟨hm', hkey'⟩ := List.mem_filter.mp (List.mem_of_getLast? hlast')
        rw [hprep] at hm hm'
        obtain ⟨x, hx, rfl⟩ := List.mem_map.mp hm
        obtain ⟨y, hy, rfl⟩ := List.mem_map.mp hm'
        have hsame : x.key = y.key :=
          (of_decide_eq_true hkey).trans (of_decide_eq_true hkey').symm
        exact hagree.content_eq h hpq hx hy hsame

/-- Two pumps number their first publish alike, and the two engines take the two prepares
in opposite orders.  The publish of the first pump is on topic 7. -/
def oppositeOrders (b b' : B) (p p' : P) (e e' : E) (topic : UInt64) :
    List (Action B P E N C) :=
  [.pumpConnectToEngine p e, .pumpConnectToEngine p e', .pumpConnectToEngine p' e,
    .pumpConnectToEngine p' e', .connectToPump b p, .connectToPump b' p',
    .publish b 1 (.on 7 [1]), .publish b' 1 (.on topic [2]), .pumpOnPublish b p default,
    .pumpOnPublish b' p' default, .engineOnPrepare p e default default,
    .engineOnPrepare p' e default default, .engineOnPrepare p' e' default default,
    .engineOnPrepare p e' default default]

theorem oppositeOrders_not_sameReplicas :
    ¬ ∀ (trace : Trace (Fin 2) (Fin 2) (Fin 2) (Fin 0) (Fin 0))
      (s : State (Fin 2) (Fin 2) (Fin 2) (Fin 0) (Fin 0)), Runs 2 trace s →
        ConnectedFirst trace → (∀ p e, (s.prepares (p, e)).queue = []) →
          SameReplicas s := by
  intro hclaim
  obtain ⟨trace, s, hrun, hconn, hquiet, hne⟩ :=
    exists_run_of_execute (oppositeOrders 0 1 0 1 0 1 7) next
      (start 2 : State (Fin 2) (Fin 2) (Fin 2) (Fin 0) (Fin 0))
      (fun trace s => ConnectedFirst trace ∧ (∀ p e, (s.prepares (p, e)).queue = []) ∧
        s.stored 0 (7, 0) ≠ s.stored 1 (7, 0))
      (by decide +kernel)
  exact hne (hclaim trace s hrun hconn hquiet 0 1 (7, 0))

/-- On two topics the same orders leave the engines in agreement. -/
theorem sameReplicas_oppositeOrders :
    ∃ (trace : Trace (Fin 2) (Fin 2) (Fin 2) (Fin 0) (Fin 0))
      (s : State (Fin 2) (Fin 2) (Fin 2) (Fin 0) (Fin 0)), Runs 2 trace s ∧
        (s.stored 0 (8, 0)).isSome ∧ SameReplicas s := by
  obtain ⟨trace, s, hrun, hsome, hconn, hquiet, htopics⟩ :=
    exists_run_of_execute (oppositeOrders 0 1 0 1 0 1 8) next
      (start 2 : State (Fin 2) (Fin 2) (Fin 2) (Fin 0) (Fin 0))
      (fun trace s => (s.stored 0 (8, 0)).isSome = true ∧
        (∀ p : Fin 2, AllConnected p trace) ∧
        (∀ p e, (s.prepares (p, e)).queue = []) ∧
        ∀ p q : Fin 2, p ≠ q → ∀ x ∈ handledBy p trace, ∀ y ∈ handledBy q trace,
          x.publish.topicId ≠ y.publish.topicId)
      (by decide +kernel)
  refine ⟨trace, s, hrun, hsome, sameReplicas hrun hconn hquiet ?_⟩
  intro p q hpq i j x y hx hy _ htopic
  exact absurd htopic
    (htopics p q hpq x (List.mem_of_getElem? hx) y (List.mem_of_getElem? hy))

/-! ## Prepares for a majority -/

/-- Number of engines of a list that a publish has reached as a prepare. -/
def reached (s : State B P E N C) (p : P) (engines : List E) (x : Handled E) : Nat :=
  engines.countP fun e => decide (x.prepare ∈ (s.prepares (p, e)).received)

/-- A publish handled while a majority of the engines were connected has reached a
majority once no prepare is in flight. -/
theorem quorum_le_reached (h : Runs groupSize trace s) {p : P} {engines : List E}
    (hquiet : ∀ e, (s.prepares (p, e)).queue = [])
    (hmajority : ∀ x ∈ handledBy p trace, quorum groupSize ≤
      engines.countP fun e => decide (e ∈ x.before.engineConnections)) :
    ∀ x ∈ handledBy p trace, quorum groupSize ≤ s.reached p engines x := by
  intro x hx
  refine (hmajority x hx).trans (List.countP_mono_left fun e _ he => ?_)
  rw [decide_eq_true_eq] at he ⊢
  rw [Channel.received_eq_sent (hquiet e)]
  exact (h.numbered p).mem_prepares.mpr ⟨x, hx, he, rfl⟩

/-- A publisher reaches the pump before the pump has connected to its engine. -/
def publishThenConnect (b : B) (p : P) (e : E) : List (Action B P E N C) :=
  [.connectToPump b p, .publish b 1 (.on 7 [1]), .pumpOnPublish b p default,
    .pumpConnectToEngine p e]

theorem publishThenConnect_not_reached :
    ¬ ∀ (trace : Trace (Fin 1) (Fin 1) (Fin 1) (Fin 0) (Fin 0))
      (s : State (Fin 1) (Fin 1) (Fin 1) (Fin 0) (Fin 0)), Runs 1 trace s →
        ∀ engines : List (Fin 1), engines.Nodup → engines.length = (1 : UInt16).toNat →
        (∀ e ∈ engines, e ∈ (s.pump 0).engineConnections) →
        (∀ e, (s.prepares (0, e)).queue = []) →
        ∀ x ∈ handledBy 0 trace, quorum 1 ≤ s.reached 0 engines x := by
  intro hclaim
  obtain ⟨trace, s, hrun, hconn, hquiet, x, hx, hlt⟩ :=
    exists_run_of_execute (publishThenConnect 0 0 0) next
      (start 1 : State (Fin 1) (Fin 1) (Fin 1) (Fin 0) (Fin 0))
      (fun trace s => (∀ e, e ∈ (s.pump 0).engineConnections) ∧
        (∀ e, (s.prepares (0, e)).queue = []) ∧
        ∃ x ∈ handledBy (0 : Fin 1) trace, s.reached 0 [0] x < quorum 1)
      (by decide +kernel)
  have hle := hclaim trace s hrun [0] (List.nodup_singleton 0) rfl (fun e _ => hconn e) hquiet
    x hx
  omega

/-- With the engine connected first the publish reaches it. -/
theorem quorum_le_reached_connectThenPublish :
    ∃ (trace : Trace (Fin 1) (Fin 1) (Fin 1) (Fin 0) (Fin 0))
      (s : State (Fin 1) (Fin 1) (Fin 1) (Fin 0) (Fin 0)), Runs 1 trace s ∧
        (handledBy 0 trace).length = 1 ∧
        ∀ x ∈ handledBy 0 trace, quorum 1 ≤ s.reached 0 [0] x := by
  obtain ⟨trace, s, hrun, hlen, hquiet, hmajority⟩ :=
    exists_run_of_execute (.pumpConnectToEngine 0 0 :: (publishThenConnect 0 0 0).take 3 ++
        [.engineOnPrepare 0 0 default default]) next
      (start 1 : State (Fin 1) (Fin 1) (Fin 1) (Fin 0) (Fin 0))
      (fun trace s => (handledBy (0 : Fin 1) trace).length = 1 ∧
        (∀ e, (s.prepares (0, e)).queue = []) ∧
        ∀ x ∈ handledBy (0 : Fin 1) trace, quorum 1 ≤
          [0].countP fun e => decide (e ∈ x.before.engineConnections))
      (by decide +kernel)
  exact ⟨trace, s, hrun, hlen, quorum_le_reached hrun hquiet hmajority⟩

end State

end Firehose.Cluster
