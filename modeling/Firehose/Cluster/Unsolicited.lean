import Firehose.Cluster.Node
import Firehose.Foundation.Ledger

set_option autoImplicit false

/-!
# Unsubscribes nobody asked for

The handlers erase what `std::find` returns without looking whether it found anything.
A list of requests never makes them erase the end of a vector exactly when none of its
beginnings unsubscribes more often than it subscribes: at a nuzzle for some topic and
connection, at an engine for some topic, connection and client.
-/

namespace Firehose.Cluster

open Firehose.Api Firehose.Foundation Firehose.Node

/-! ## The engine -/

namespace EngineEvent

variable {P N : Type} [DecidableEq N]

/-- The engine alone, without the history of its channels. -/
def serve (engine : Engine N) : EngineEvent P N → Option (Engine N)
  | .prepare p ackMemory publishMemory m =>
      some (engine.onPrepareReceive ackMemory publishMemory p (Engine.MsgPrepareReqRx.get m)).1
  | .accept p request => some (engine.onAcceptReceive p request)
  | .update n m =>
      engine.onUpdateSubscriptionReceive n (Engine.MsgUpdateSubscriptionReqRx.get m)

/-- The topic, the connection and the client of an update. -/
def subject (n : N) (m : RequestUpdateSubscriptionProto) : UInt64 × N × UInt64 :=
  (m.topicId, n, Engine.clientId m.get)

/-- The subject that an event subscribes. -/
def subscribed : EngineEvent P N → Option (UInt64 × N × UInt64)
  | .update n m => if m.get.isSubscribe then some (subject n m) else none
  | _ => none

/-- The subject that an event unsubscribes. -/
def unsubscribed : EngineEvent P N → Option (UInt64 × N × UInt64)
  | .update n m => if m.get.isSubscribe then none else some (subject n m)
  | _ => none

/-- The engine reads the same under every topic and connection. -/
def SameSubscriptions (engine engine' : Engine N) : Prop :=
  (∀ topic, engine'.subscriptions.get topic = engine.subscriptions.get topic) ∧
    ∀ topic n, engine'.clients topic n = engine.clients topic n

/-- The handler erases no end iterator, and an unsubscribe of what is not subscribed
changes nothing. -/
def Harmless (engine : Engine N) (event : EngineEvent P N) : Prop :=
  (serve engine event).isSome = true ∧
    ∀ k ∈ event.unsubscribed, k.2.2 ∉ engine.clients k.1 k.2.1 →
      ∀ engine', serve engine event = some engine' → SameSubscriptions engine engine'

/-- What an engine books: its recorded clients. -/
def ledger : Ledger (Engine N) (EngineEvent P N) (UInt64 × N × UInt64) where
  next := serve
  held := fun engine k => (engine.clients k.1 k.2.1).count k.2.2
  opens := subscribed
  closes := unsubscribed

theorem covered_serve {engine engine' : Engine N} {event : EngineEvent P N}
    (hinv : engine.Covered) (h : serve engine event = some engine') : engine'.Covered := by
  cases event with
  | prepare p ackMemory publishMemory m =>
      rw [← Option.some.inj h]
      exact Engine.covered_onPrepareReceive hinv ackMemory publishMemory p _
  | accept p request =>
      rw [← Option.some.inj h]
      exact hinv
  | update n m => exact Engine.covered_onUpdateSubscriptionReceive hinv h

/-- A subscribe records its client once more, an unsubscribe once less. -/
theorem held_serve {engine engine' : Engine N} {event : EngineEvent P N}
    (hinv : engine.Covered) (h : serve engine event = some engine')
    (k : UInt64 × N × UInt64) :
    (engine'.clients k.1 k.2.1).count k.2.2 +
        (if event.unsubscribed = some k then 1 else 0) =
      (engine.clients k.1 k.2.1).count k.2.2 +
        if event.subscribed = some k then 1 else 0 := by
  obtain ⟨topic, nuzzle, client⟩ := k
  cases event with
  | prepare | accept =>
      rw [← Option.some.inj h]
      rfl
  | update n m =>
      have htopic : m.get.topicId = m.topicId := rfl
      unfold subscribed unsubscribed subject
      rcases Engine.onUpdateSubscriptionReceive_cases h with ⟨hsub, rfl⟩ | ⟨hsub, hun⟩
      · simp only [hsub, if_true]
        rw [Engine.subscribe_clients hinv, htopic]
        by_cases hkey : topic = m.topicId ∧ nuzzle = n
        · obtain ⟨rfl, rfl⟩ := hkey
          simp [List.count_append, List.count_singleton, beq_iff_eq]
        · have hne : ¬ (m.topicId = topic ∧ n = nuzzle ∧ Engine.clientId m.get = client) :=
            fun heq => hkey ⟨heq.1.symm, heq.2.1.symm⟩
          simp [hkey, hne]
      · simp only [hsub, Bool.false_eq_true, if_false]
        obtain ⟨hmem, -, hclients, -⟩ := Engine.unsubscribe_eq_some hun
        rw [hclients, htopic]
        by_cases hkey : topic = m.topicId ∧ nuzzle = n
        · obtain ⟨rfl, rfl⟩ := hkey
          rw [htopic] at hmem
          by_cases hclient : Engine.clientId m.get = client
          · subst hclient
            have hpos : 0 < (engine.clients m.topicId nuzzle).count (Engine.clientId m.get) :=
              List.count_pos_iff.mpr hmem
            simp only [and_self, if_true, List.count_erase_self, reduceCtorEq, if_false]
            omega
          · simp [hclient, List.count_erase_of_ne (Ne.symm hclient)]
        · have hne : ¬ (m.topicId = topic ∧ n = nuzzle ∧ Engine.clientId m.get = client) :=
            fun heq => hkey ⟨heq.1.symm, heq.2.1.symm⟩
          simp [hkey, hne]

theorem serve_isSome_iff {engine : Engine N} (hinv : engine.Covered) (event : EngineEvent P N) :
    (serve engine event).isSome = true ↔
      ∀ k ∈ event.unsubscribed, 0 < (engine.clients k.1 k.2.1).count k.2.2 := by
  cases event with
  | prepare | accept => simp [serve, unsubscribed]
  | update n m =>
      have htopic : m.get.topicId = m.topicId := rfl
      unfold serve unsubscribed subject
      rw [Engine.onUpdateSubscriptionReceive_isSome_iff hinv, htopic]
      by_cases hsub : m.get.isSubscribe = true
      · simp [hsub]
      · simp [hsub, List.count_pos_iff]

theorem ledger_lawful :
    (ledger : Ledger (Engine N) (EngineEvent P N) (UInt64 × N × UInt64)).Lawful
      Engine.Covered where
  inv_next := covered_serve
  held_next := held_serve
  isSome_iff := fun hinv => serve_isSome_iff hinv _
  opens_of_closes := by
    intro event k hk
    cases event with
    | prepare | accept => rfl
    | update n m =>
        simp only [ledger, unsubscribed, subscribed] at hk ⊢
        split at hk
        · simp at hk
        · rename_i hsub
          rw [if_neg hsub]

/-- Where the clients match, a request is harmless as soon as it is defined. -/
theorem harmless_iff {engine : Engine N} (hinv : engine.Covered) (event : EngineEvent P N) :
    Harmless engine event ↔ (serve engine event).isSome = true := by
  refine ⟨And.left, fun h => ⟨h, fun k hk hnot => ?_⟩⟩
  have hpos := (serve_isSome_iff hinv event).mp h k hk
  exact absurd (List.count_pos_iff.mp hpos) hnot

/-- The requests an engine gets from its start are harmless exactly when none of their
beginnings unsubscribes a client more often than it subscribes it. -/
theorem along_harmless_iff (labels : List (EngineEvent P N)) :
    Along serve Engine.new labels Harmless ↔ ledger.Solvent labels := by
  have hnone : ∀ k, (ledger : Ledger (Engine N) (EngineEvent P N) _).held Engine.new k = 0 := by
    simp [ledger, Engine.new, Engine.clients]
  exact ledger_lawful.along_iff Engine.covered_new hnone
    (fun _ event hinv => harmless_iff hinv event) labels

end EngineEvent

/-! ## The nuzzle -/

namespace NuzzleEvent

variable {E C : Type} [DecidableEq C]

/-- The nuzzle alone, without the history of its channels. -/
def serve (nuzzle : Nuzzle E C) : NuzzleEvent E C → Option (Nuzzle E C)
  | .connect e => some (nuzzle.connectToEngine e)
  | .publish e m => some (nuzzle.onPublishReceive e (Nuzzle.MsgPublishReqRx.get m)).1
  | .update c memory m =>
      (nuzzle.onUpdateSubscriptionReceive memory c
        (Nuzzle.MsgUpdateSubscriptionReqRx.get m)).map Prod.fst

/-- The topic and the connection that an event subscribes. -/
def subscribed : NuzzleEvent E C → Option (UInt64 × C)
  | .update c _ m => if m.get.isSubscribe then some (m.topicId, c) else none
  | _ => none

/-- The topic and the connection that an event unsubscribes. -/
def unsubscribed : NuzzleEvent E C → Option (UInt64 × C)
  | .update c _ m => if m.get.isSubscribe then none else some (m.topicId, c)
  | _ => none

/-- The handler erases no end iterator, and an unsubscribe of what is not subscribed
changes nothing. -/
def Harmless (nuzzle : Nuzzle E C) (event : NuzzleEvent E C) : Prop :=
  (serve nuzzle event).isSome = true ∧
    ∀ k ∈ event.unsubscribed, k.2 ∉ nuzzle.subscriptions.get k.1 →
      ∀ nuzzle', serve nuzzle event = some nuzzle' →
        ∀ topic, nuzzle'.subscriptions.get topic = nuzzle.subscriptions.get topic

/-- What a nuzzle books: the entries of its subscriptions. -/
def ledger : Ledger (Nuzzle E C) (NuzzleEvent E C) (UInt64 × C) where
  next := serve
  held := fun nuzzle k => (nuzzle.subscriptions.get k.1).count k.2
  opens := subscribed
  closes := unsubscribed

/-- A subscribe adds an entry of its connection, an unsubscribe takes one away. -/
theorem held_serve {nuzzle nuzzle' : Nuzzle E C} {event : NuzzleEvent E C}
    (h : serve nuzzle event = some nuzzle') (k : UInt64 × C) :
    (nuzzle'.subscriptions.get k.1).count k.2 +
        (if event.unsubscribed = some k then 1 else 0) =
      (nuzzle.subscriptions.get k.1).count k.2 +
        if event.subscribed = some k then 1 else 0 := by
  obtain ⟨topic, consumer⟩ := k
  cases event with
  | connect e =>
      rw [← Option.some.inj h]
      rfl
  | publish e m =>
      rw [← Option.some.inj h]
      simp [subscribed, unsubscribed]
  | update c memory m =>
      obtain ⟨⟨nuzzle', out⟩, hup, rfl⟩ := Option.map_eq_some_iff.mp h
      obtain ⟨-, -, -, -, hother, hown⟩ := Nuzzle.onUpdateSubscriptionReceive_eq_some hup
      have htopic : m.get.topicId = m.topicId := rfl
      rw [htopic] at hown hother
      unfold subscribed unsubscribed
      by_cases ht : topic = m.topicId
      · subst ht
        by_cases hsub : m.get.isSubscribe = true
        · simp only [hsub, if_true] at hown ⊢
          simp [hown, List.count_append, List.count_singleton, beq_iff_eq]
        · simp only [hsub, Bool.false_eq_true, if_false] at hown ⊢
          obtain ⟨hmem, hown⟩ := hown
          by_cases hc : c = consumer
          · subst hc
            have hpos := List.count_pos_iff.mpr hmem
            simp only [hown, List.count_erase_self, if_true, reduceCtorEq, if_false]
            omega
          · simp [hown, hc, List.count_erase_of_ne (Ne.symm hc)]
      · simp [hother topic ht, Ne.symm ht]

theorem serve_isSome_iff (nuzzle : Nuzzle E C) (event : NuzzleEvent E C) :
    (serve nuzzle event).isSome = true ↔
      ∀ k ∈ event.unsubscribed, 0 < (nuzzle.subscriptions.get k.1).count k.2 := by
  cases event with
  | connect | publish => simp [serve, unsubscribed]
  | update c memory m =>
      have htopic : m.get.topicId = m.topicId := rfl
      unfold serve unsubscribed
      rw [Option.isSome_map, Nuzzle.onUpdateSubscriptionReceive_isSome_iff, htopic]
      by_cases hsub : m.get.isSubscribe = true
      · simp [hsub]
      · simp [hsub, List.count_pos_iff]

theorem ledger_lawful :
    (ledger : Ledger (Nuzzle E C) (NuzzleEvent E C) (UInt64 × C)).Lawful fun _ => True where
  inv_next := fun _ _ => trivial
  held_next := fun _ h => held_serve h
  isSome_iff := fun _ => serve_isSome_iff _ _
  opens_of_closes := by
    intro event k hk
    cases event with
    | connect | publish => rfl
    | update c memory m =>
        simp only [ledger, unsubscribed, subscribed] at hk ⊢
        split at hk
        · simp at hk
        · rename_i hsub
          rw [if_neg hsub]

theorem harmless_iff (nuzzle : Nuzzle E C) (event : NuzzleEvent E C) :
    Harmless nuzzle event ↔ (serve nuzzle event).isSome = true := by
  refine ⟨And.left, fun h => ⟨h, fun k hk hnot => ?_⟩⟩
  have hpos := (serve_isSome_iff nuzzle event).mp h k hk
  exact absurd (List.count_pos_iff.mp hpos) hnot

/-- The requests a nuzzle gets from its start are harmless exactly when none of their
beginnings unsubscribes a connection more often than it subscribes it. -/
theorem along_harmless_iff (groupSize : UInt16) (labels : List (NuzzleEvent E C)) :
    Along serve (Nuzzle.new groupSize) labels Harmless ↔ ledger.Solvent labels := by
  have hnone : ∀ k, (ledger : Ledger (Nuzzle E C) (NuzzleEvent E C) _).held
      (Nuzzle.new groupSize) k = 0 := by
    simp [ledger, Nuzzle.new]
  exact ledger_lawful.along_iff trivial hnone (fun nuzzle event _ => harmless_iff nuzzle event)
    labels

end NuzzleEvent

/-! ## Both servers -/

/-- Whatever requests come, engine and nuzzle take them without harm exactly when none of
their beginnings unsubscribes more than it subscribes. -/
theorem unsubscribes_harmless_iff {P N E C : Type} [DecidableEq N] [DecidableEq C] :
    (∀ labels : List (EngineEvent P N),
      Along EngineEvent.serve Engine.new labels EngineEvent.Harmless ↔
        EngineEvent.ledger.Solvent labels) ∧
    ∀ (groupSize : UInt16) (labels : List (NuzzleEvent E C)),
      Along NuzzleEvent.serve (Nuzzle.new groupSize) labels NuzzleEvent.Harmless ↔
        NuzzleEvent.ledger.Solvent labels :=
  ⟨EngineEvent.along_harmless_iff, NuzzleEvent.along_harmless_iff⟩

/-- An unsubscribe that comes first makes either server erase the end of an empty
vector. -/
theorem first_unsubscribe_not_harmless :
    (¬ ∀ labels : List (EngineEvent (Fin 1) (Fin 1)),
      Along EngineEvent.serve Engine.new labels EngineEvent.Harmless) ∧
    ¬ ∀ (groupSize : UInt16) (labels : List (NuzzleEvent (Fin 1) (Fin 1))),
      Along NuzzleEvent.serve (Nuzzle.new groupSize) labels NuzzleEvent.Harmless := by
  constructor
  · intro hclaim
    have h := hclaim [.update 0 (RequestUpdateSubscription.on 7 0).set] [] Engine.new
      (.update 0 (RequestUpdateSubscription.on 7 0).set) [] .refl rfl
    exact absurd h.1 (by decide +kernel)
  · intro hclaim
    have h := hclaim 1
      [.update 0 (fun _ => default) (RequestUpdateSubscription.on 7 0).set] [] (Nuzzle.new 1)
      (.update 0 (fun _ => default) (RequestUpdateSubscription.on 7 0).set) [] .refl rfl
    exact absurd h.1 (by decide +kernel)

end Firehose.Cluster
