import Firehose.Cluster.PumpRun

set_option autoImplicit false

/-!
# The identity of a message

The engines and the nuzzles tell messages apart by topic and global identifier.  Each
pump numbers from its own counter, so the identifiers of one pump are distinct and those
of two pumps are not.
-/

namespace Firehose.Cluster

open Firehose.Api Firehose.Foundation Firehose.Node

namespace State

variable {B P E N C : Type}
variable [DecidableEq B] [DecidableEq P] [DecidableEq E] [DecidableEq N] [DecidableEq C]
variable {groupSize : UInt16} {trace : Trace B P E N C} {s : State B P E N C}

/-- No two publishes handled, by one pump or by two, go to the engines under one key. -/
def IdentityUnique (trace : Trace B P E N C) : Prop :=
  ∀ (p q : P) (i j : Nat) (x y : Handled E), (handledBy p trace)[i]? = some x →
    (handledBy q trace)[j]? = some y → (p, i) ≠ (q, j) →
    ∀ o ∈ x.sent, ∀ o' ∈ y.sent, o.2.key ≠ o'.2.key

/-- The publishes that two pumps handle after equally many others are on different
topics, unless one of them goes to no engine. -/
def TopicsApart (trace : Trace B P E N C) : Prop :=
  ∀ p q : P, p ≠ q → ∀ (k : Nat) (x y : Handled E), (handledBy p trace)[k]? = some x →
    (handledBy q trace)[k]? = some y → x.before.engineConnections ≠ [] →
    y.before.engineConnections ≠ [] → x.publish.topicId ≠ y.publish.topicId

/-- The key of a publish is its topic and its position among those of its pump. -/
theorem key_of_getElem? (h : Runs groupSize trace s) {p : P} {k : Nat} {x : Handled E}
    (hx : (handledBy p trace)[k]? = some x) : x.key = (x.publish.topicId, UInt64.ofNat k) := by
  rw [x.key_eq, (h.numbered p).id_of_getElem? hx]

omit [DecidableEq B] [DecidableEq E] [DecidableEq N] [DecidableEq C] in
/-- Below 2^64 publishes two positions with one number are one position. -/
theorem index_eq_of_ofNat_eq {p q : P} (hfew : ∀ p, (handledBy p trace).length ≤ 2 ^ 64)
    {i j : Nat} {x y : Handled E} (hx : (handledBy p trace)[i]? = some x)
    (hy : (handledBy q trace)[j]? = some y) (hij : UInt64.ofNat i = UInt64.ofNat j) :
    i = j := by
  have hi : i < (handledBy p trace).length := (List.getElem?_eq_some_iff.mp hx).1
  have hj : j < (handledBy q trace).length := (List.getElem?_eq_some_iff.mp hy).1
  have hnat := congrArg UInt64.toNat hij
  rwa [PumpNode.Numbered.toNat_ofNat_index (hfew p) hi,
    PumpNode.Numbered.toNat_ofNat_index (hfew q) hj] at hnat

/-- Where pumps do not meet on a topic, keys are unique. -/
theorem TopicsApart.identityUnique (hapart : TopicsApart trace) (h : Runs groupSize trace s)
    (hfew : ∀ p, (handledBy p trace).length ≤ 2 ^ 64) : IdentityUnique trace := by
  intro p q i j x y hx hy hne o ho o' ho' hkey
  obtain ⟨he, hom⟩ := Handled.mem_sent.mp ho
  obtain ⟨he', hom'⟩ := Handled.mem_sent.mp ho'
  rw [hom, hom', Handled.prepare_key, Handled.prepare_key, key_of_getElem? h hx,
    key_of_getElem? h hy, Prod.mk.injEq] at hkey
  have hij := index_eq_of_ofNat_eq hfew hx hy hkey.2
  subst hij
  have hpq : p ≠ q := fun heq => hne (by rw [heq])
  exact hapart p q hpq i x y hx hy (List.ne_nil_of_mem he) (List.ne_nil_of_mem he') hkey.1

/-- Keys are unique across the system exactly when no two pumps handle equally many
publishes before one on the same topic. -/
theorem identityUnique_iff (h : Runs groupSize trace s)
    (hfew : ∀ p, (handledBy p trace).length ≤ 2 ^ 64) :
    IdentityUnique trace ↔ TopicsApart trace := by
  constructor
  · intro hunique p q hpq k x y hx hy hxe hye htopic
    obtain ⟨e, he⟩ := List.exists_mem_of_ne_nil _ hxe
    obtain ⟨e', he'⟩ := List.exists_mem_of_ne_nil _ hye
    have hne : (p, k) ≠ (q, k) := fun heq => hpq (congrArg Prod.fst heq)
    refine hunique p q k k x y hx hy hne (e, x.prepare) (Handled.mem_sent.mpr ⟨he, rfl⟩)
      (e', y.prepare) (Handled.mem_sent.mpr ⟨he', rfl⟩) ?_
    rw [Handled.prepare_key, Handled.prepare_key, key_of_getElem? h hx,
      key_of_getElem? h hy, htopic]
  · exact fun hapart => hapart.identityUnique h hfew

/-- A publisher with two pumps publishes twice on one topic: its round robin hands each
pump one publish, and each pump gives it the number 0. -/
def roundRobin (b : B) (p p' : P) (e : E) : List (Action B P E N C) :=
  [.pumpConnectToEngine p e, .pumpConnectToEngine p' e, .connectToPump b p,
    .connectToPump b p', .publish b 1 (.on 7 [1]), .publish b 2 (.on 7 [2]),
    .pumpOnPublish b p default, .pumpOnPublish b p' default]

theorem roundRobin_not_identityUnique :
    ¬ ∀ (trace : Trace (Fin 1) (Fin 2) (Fin 1) (Fin 1) (Fin 1))
      (s : State (Fin 1) (Fin 2) (Fin 1) (Fin 1) (Fin 1)), Runs 1 trace s →
        (handledBy 0 trace).length + (handledBy 1 trace).length < 2 ^ 64 →
          IdentityUnique trace := by
  intro hclaim
  obtain ⟨trace, s, hrun, hfew, x, hx, y, hy, o, ho, o', ho', hkey⟩ :=
    exists_run_of_execute (roundRobin 0 0 1 0) next
      (start 1 : State (Fin 1) (Fin 2) (Fin 1) (Fin 1) (Fin 1))
      (fun trace _ =>
        (handledBy 0 trace).length + (handledBy 1 trace).length < 2 ^ 64 ∧
          ∃ x ∈ handledBy 0 trace, ∃ y ∈ handledBy 1 trace,
            ∃ o ∈ x.sent, ∃ o' ∈ y.sent, o.2.key = o'.2.key)
      (by decide +kernel)
  obtain ⟨i, hi⟩ := List.mem_iff_getElem?.mp hx
  obtain ⟨j, hj⟩ := List.mem_iff_getElem?.mp hy
  exact hclaim trace s hrun hfew 0 1 i j x y hi hj
    (fun heq => (by decide : (0 : Fin 2) ≠ 1) (congrArg Prod.fst heq)) o ho o' ho' hkey

theorem identityUnique_iff_roundRobin :
    ∃ (trace : Trace (Fin 1) (Fin 2) (Fin 1) (Fin 1) (Fin 1))
      (s : State (Fin 1) (Fin 2) (Fin 1) (Fin 1) (Fin 1)), Runs 1 trace s ∧
        (∀ p, (handledBy p trace).length = 1) ∧ (IdentityUnique trace ↔ TopicsApart trace) := by
  obtain ⟨trace, s, hrun, hone⟩ := exists_run_of_execute (roundRobin 0 0 1 0) next
    (start 1 : State (Fin 1) (Fin 2) (Fin 1) (Fin 1) (Fin 1))
    (fun trace _ => ∀ p, (handledBy p trace).length = 1) (by decide +kernel)
  exact ⟨trace, s, hrun, hone, identityUnique_iff hrun fun p => by rw [hone p]; decide⟩

end State

end Firehose.Cluster
