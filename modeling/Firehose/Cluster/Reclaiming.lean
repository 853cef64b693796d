import Firehose.Cluster.DeliveryLaw
import Firehose.Cluster.EngineRun
import Firehose.Cluster.PumpRun

set_option autoImplicit false

/-!
# What a nuzzle is left with

A nuzzle forgets a message when as many copies have arrived as a group has engines.  How
many an engine sends is how often it lists the nuzzle when it handles the prepare, and two
engines may handle it on different sides of a change of the subscriptions.  Once nothing
is in flight, what the nuzzle still keeps is decided by these numbers alone.
-/

namespace Firehose.Cluster

open Firehose.Api Firehose.Foundation Firehose.Node

namespace EngineNode

variable {P N : Type} [DecidableEq N]

/-- Number of entries the engine has for a nuzzle when it handles a prepare with the key. -/
def entriesAt (n : N) (key : Key) (node : EngineNode P N) : EngineEvent P N → Nat
  | .prepare _ _ _ m =>
      if m.key = key then (node.engine.subscriptions.get key.1).count n else 0
  | _ => 0

variable [DecidableEq P]

/-- As many copies go out in a step as the engine has entries. -/
theorem copies_fanouts_next {node node' : EngineNode P N} {event : EngineEvent P N}
    (h : Steps next node event node') (n : N) (key : Key) :
    copies key (node'.fanouts n) = copies key (node.fanouts n) + entriesAt n key node event := by
  cases event with
  | prepare p ackMemory publishMemory m => exact copies_fanouts_next_prepare h n key
  | accept | update =>
      obtain ⟨-, -, hfan, -⟩ := messages_next h (by simp)
      simp [hfan, entriesAt]

end EngineNode

namespace State

variable {B P E N C : Type}
variable [DecidableEq B] [DecidableEq P] [DecidableEq E] [DecidableEq N] [DecidableEq C]
variable {groupSize : UInt16} {trace : Trace B P E N C} {s : State B P E N C}

/-- Number of entries that one engine has for a nuzzle when it handles the prepare of a
message. -/
def entries (e : E) (n : N) (key : Key) (trace : Trace B P E N C) : Nat :=
  (trace.map fun x =>
    match engineEvent e x.1 x.2 with
    | none => 0
    | some event => EngineNode.entriesAt n key (x.1.engineNode e) event).sum

/-- An engine has sent as many copies as it had entries. -/
theorem copies_sent_eq_entries (h : Runs groupSize trace s) (e : E) (n : N) (key : Key) :
    copies key (s.fanouts (e, n)).sent = entries e n key trace := by
  induction h with
  | refl => rfl
  | @snoc trace s s' a hrun hstep ih =>
      have hnew : entries e n key (trace ++ [(s, a)]) = entries e n key trace +
          match engineEvent e s a with
          | none => 0
          | some event => EngineNode.entriesAt n key (s.engineNode e) event := by
        simp [entries]
      rw [hnew, ← ih]
      rcases (engineNode_simulates e s a s' hstep).cases with ⟨hnone, hsame⟩ | ⟨event, hev, hview⟩
      · have hfan : (s'.fanouts (e, n)).sent = (s.fanouts (e, n)).sent :=
          congrFun (congrArg EngineNode.fanouts hsame) n
        simp [hnone, hfan]
      · rw [hev]
        exact EngineNode.copies_fanouts_next hview n key

/-- Every quorum record has been reclaimed. -/
def Reclaimed (s : State B P E N C) : Prop :=
  ∀ n key, (s.nuzzle n).messageBuffer.find? key = none

/-- With nothing in flight a nuzzle has received one copy for each entry. -/
theorem received_eq_entries [Fintype E] (h : Runs groupSize trace s) (hquiet : Quiescent s)
    (n : N) (key : Key) : (s.nuzzleNode n).received key = ∑ e, entries e n key trace := by
  refine Finset.sum_congr rfl fun e _ => ?_
  rw [← copies_sent_eq_entries h, ← Channel.received_eq_sent (hquiet.2.2.2.2.1 (e, n))]
  rfl

/-- With nothing in flight every record is reclaimed exactly when, for each message and
each nuzzle, the entries the engines had at the prepare add up to whole groups. -/
theorem reclaimed_iff [Fintype E] (h : Runs groupSize trace s) (hpos : 0 < groupSize.toNat)
    (hquiet : Quiescent s) :
    Reclaimed s ↔ ∀ n key, groupSize.toNat ∣ ∑ e, entries e n key trace := by
  refine forall_congr' fun n => ?_
  refine (NuzzleNode.messageBuffer_empty_iff hpos (h.nuzzleNode n)).trans ?_
  refine forall_congr' fun key => ?_
  rw [received_eq_entries h hquiet]

/-- When the engines of a group have equally many entries at each prepare, every record is
reclaimed. -/
theorem reclaimed_of_entries_eq [Fintype E] (h : Runs groupSize trace s)
    (hpos : 0 < groupSize.toNat) (hcard : Fintype.card E = groupSize.toNat)
    (hquiet : Quiescent s)
    (hsame : ∀ n key e e', entries e n key trace = entries e' n key trace) : Reclaimed s := by
  intro n
  refine (NuzzleNode.messageBuffer_empty_iff hpos (h.nuzzleNode n)).mpr fun key => ?_
  obtain ⟨e⟩ : Nonempty E := Fintype.card_pos_iff.mp (hcard ▸ hpos)
  rw [received_eq_entries h hquiet, Finset.sum_congr rfl fun e' _ => hsame n key e' e,
    Finset.sum_const, Finset.card_univ, hcard, smul_eq_mul]
  exact Nat.dvd_mul_right _ _

/-- One engine handles the prepare before it hears of the subscription, the other after. -/
def subscribeDuringPublish (b : B) (e e' : E) (n : N) (c : C) : List (Action B Unit E N C) :=
  [.pumpConnectToEngine () e, .pumpConnectToEngine () e', .nuzzleConnectToEngine n e,
    .nuzzleConnectToEngine n e', .connectToPump b (), .connectToNuzzle c n,
    .publish b 5 (.on 7 [1]), .updateSubscribtion c (.on 7 1), .pumpOnPublish b () default,
    .nuzzleOnUpdate c n (fun _ => default), .engineOnPrepare () e default default,
    .engineOnUpdate n e, .engineOnUpdate n e', .engineOnPrepare () e' default default,
    .nuzzleOnPublish e' n, .pumpOnPrepareAck e (), .pumpOnPrepareAck e' ()]

theorem subscribeDuringPublish_not_reclaimed :
    ¬ ∀ (trace : Trace (Fin 1) Unit (Fin 2) (Fin 1) (Fin 1))
      (s : State (Fin 1) Unit (Fin 2) (Fin 1) (Fin 1)), Runs 2 trace s →
        ConnectedFirst trace → (handledBy () trace).length < 2 ^ 64 → Quiescent s →
        Reclaimed s := by
  intro hclaim
  obtain ⟨trace, s, hrun, hconn, hfew, hquiet, hkept⟩ :=
    exists_run_of_execute (subscribeDuringPublish 0 0 1 0 0) next
      (start 2 : State (Fin 1) Unit (Fin 2) (Fin 1) (Fin 1))
      (fun trace s => ConnectedFirst trace ∧ (handledBy () trace).length < 2 ^ 64 ∧
        Quiescent s ∧ (s.nuzzle 0).messageBuffer.find? (7, 0) = some [1])
      (by decide +kernel)
  rw [hclaim trace s hrun hconn hfew hquiet 0 (7, 0)] at hkept
  simp at hkept

/-- There the two sides of the equivalence fail together. -/
theorem reclaimed_iff_subscribeDuringPublish :
    ∃ (trace : Trace (Fin 1) Unit (Fin 2) (Fin 1) (Fin 1))
      (s : State (Fin 1) Unit (Fin 2) (Fin 1) (Fin 1)), Runs 2 trace s ∧
        (entries 0 0 (7, 0) trace = 0 ∧ entries 1 0 (7, 0) trace = 1) ∧
        (Reclaimed s ↔ ∀ n key, (2 : UInt16).toNat ∣ ∑ e, entries e n key trace) := by
  obtain ⟨trace, s, hrun, hquiet, hentries⟩ :=
    exists_run_of_execute (subscribeDuringPublish 0 0 1 0 0) next
      (start 2 : State (Fin 1) Unit (Fin 2) (Fin 1) (Fin 1))
      (fun trace s => Quiescent s ∧ entries 0 0 (7, 0) trace = 0 ∧
        entries 1 0 (7, 0) trace = 1) (by decide +kernel)
  exact ⟨trace, s, hrun, hentries, reclaimed_iff hrun (by decide) hquiet⟩

end State

end Firehose.Cluster
