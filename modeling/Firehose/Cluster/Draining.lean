import Firehose.Cluster.Definedness
import Firehose.Foundation.Draining

set_option autoImplicit false

/-!
# The system drains

Once the clients are silent only handlers run.  Every handler takes one message off one
channel, and what it pushes goes to a later stage, so the handlers come to an end whatever
order they run in.  None of them is undefined on what it is handed, provided that nobody
takes back a subscription that is not there, so they end with nothing in flight.
-/

namespace Firehose.Cluster

open Firehose.Api Firehose.Foundation Firehose.Node
open Function (update)
open Channel (inFlight)

namespace State

variable {B P E N C : Type}
variable [DecidableEq B] [DecidableEq P] [DecidableEq E] [DecidableEq N] [DecidableEq C]

/-! ## The handlers come to an end -/

section Load

variable [Fintype B] [Fintype P] [Fintype E] [Fintype N] [Fintype C]

/-- The messages in flight, by stage: what a handler sends is at a later stage than what
it is handed. -/
def load (s : State B P E N C) : Fin 7 → Nat :=
  ![inFlight s.publishes, inFlight s.requests, inFlight s.prepares, inFlight s.updates,
    inFlight s.fanouts, inFlight s.acks, inFlight s.deliveries]

/-- Every handler spends at the stage it takes its message from. -/
theorem spends_next {s s' : State B P E N C} {a : Action B P E N C}
    (hhandler : a.isHandler = true) (h : next s a = some s') : Spends load s s' := by
  cases a with
  | pumpOnPublish b p memory =>
      obtain ⟨m, ch, r, hpop, -, rfl⟩ := pumpOnPublish_next h
      have hless := Channel.inFlight_update_pop? hpop
      refine ⟨0, by simp, ?_⟩
      simp only [load, Matrix.cons_val_zero]
      omega
  | nuzzleOnUpdate c n memory =>
      obtain ⟨m, ch, nuzzle, out, hpop, -, rfl⟩ := nuzzleOnUpdate_next h
      have hless := Channel.inFlight_update_pop? hpop
      refine ⟨1, fun i hi => ?_, ?_⟩
      · obtain rfl : i = 0 := by omega
        simp only [load, Matrix.cons_val_zero]
      simp only [load, Matrix.cons_val_one, Matrix.cons_val_zero]
      omega
  | engineOnPrepare p e ackMemory publishMemory =>
      obtain ⟨m, ch, r, hpop, -, rfl⟩ := engineOnPrepare_next h
      have hless := Channel.inFlight_update_pop? hpop
      refine ⟨2, by simp [load, Fin.forall_fin_succ], ?_⟩
      simp [load]
      omega
  | engineOnUpdate n e =>
      obtain ⟨m, ch, engine, hpop, -, rfl⟩ := engineOnUpdate_next h
      have hless := Channel.inFlight_update_pop? hpop
      refine ⟨3, by simp [load, Fin.forall_fin_succ], ?_⟩
      simp [load]
      omega
  | nuzzleOnPublish e n =>
      obtain ⟨m, ch, r, hpop, -, rfl⟩ := nuzzleOnPublish_next h
      have hless := Channel.inFlight_update_pop? hpop
      refine ⟨4, by simp [load, Fin.forall_fin_succ], ?_⟩
      simp [load]
      omega
  | pumpOnPrepareAck e p =>
      obtain ⟨m, ch, hpop, rfl⟩ := pumpOnPrepareAck_next h
      have hless := Channel.inFlight_update_pop? hpop
      refine ⟨5, by simp [load, Fin.forall_fin_succ], ?_⟩
      simp [load]
      omega
  | consumerOnPublish n c now now' =>
      obtain ⟨m, ch, hpop, rfl⟩ := consumerOnPublish_next h
      have hless := Channel.inFlight_update_pop? hpop
      refine ⟨6, by simp [load, Fin.forall_fin_succ], ?_⟩
      simp [load]
      omega
  | connectToPump | pumpConnectToEngine | nuzzleConnectToEngine | connectToNuzzle | publish
    | updateSubscribtion => simp [Action.isHandler] at hhandler

/-- The handlers come to an end from every state, reachable or not, in whatever order they
run. -/
theorem handlers_wellFounded :
    WellFounded fun s' s : State B P E N C => ∃ a, a.isHandler = true ∧ next s a = some s' :=
  Subrelation.wf (fun ⟨_, hhandler, hone⟩ => spends_next hhandler hone)
    (wellFounded_spends load)

end Load

/-! ## They end with nothing in flight -/

variable {s s' : State B P E N C} {a : Action B P E N C} {id : N → Int32}

/-- Handlers answer requests and make none. -/
theorem requests_sent_of_handler (hhandler : a.isHandler = true) (h : next s a = some s')
    (link : C × N) : (s'.requests link).sent = (s.requests link).sent := by
  cases a with
  | pumpOnPublish =>
      obtain ⟨_, _, _, -, -, rfl⟩ := pumpOnPublish_next h
      rfl
  | pumpOnPrepareAck =>
      obtain ⟨_, _, -, rfl⟩ := pumpOnPrepareAck_next h
      rfl
  | engineOnPrepare =>
      obtain ⟨_, _, _, -, -, rfl⟩ := engineOnPrepare_next h
      rfl
  | engineOnUpdate =>
      obtain ⟨_, _, _, -, -, rfl⟩ := engineOnUpdate_next h
      rfl
  | nuzzleOnPublish =>
      obtain ⟨_, _, _, -, -, rfl⟩ := nuzzleOnPublish_next h
      rfl
  | nuzzleOnUpdate c n memory =>
      obtain ⟨m, ch, nuzzle, out, hpop, -, rfl⟩ := nuzzleOnUpdate_next h
      exact Channel.sent_update_pop? hpop link
  | consumerOnPublish =>
      obtain ⟨_, _, -, rfl⟩ := consumerOnPublish_next h
      rfl
  | _ => simp [Action.isHandler] at hhandler

/-- Every request under way is answerable. -/
structure Answerable (id : N → Int32) (s : State B P E N C) : Prop where
  sound : Sound id s
  solvent : ∀ link, Solvent (s.requests link).sent

/-- A handler that forwards under the nuzzle's own client identifier. -/
def Handles (id : N → Int32) (a : Action B P E N C) : Prop :=
  a.isHandler = true ∧ ∀ f ∈ a.forwarded, ∀ e, (f.2 e).header.senderId = id f.1

theorem answerable_next (hinv : Answerable id s) (ha : Handles id a)
    (h : next s a = some s') : Answerable id s' := by
  have hunconnecting : ConnectsUnsubscribed s a := by
    intro n hn
    cases a with
    | nuzzleConnectToEngine => simp [Handles, Action.isHandler] at ha
    | _ => simp [Action.connecting] at hn
  refine ⟨sound_next hinv.sound ha.2 hunconnecting h, fun link => ?_⟩
  rw [requests_sent_of_handler ha.1 h]
  exact hinv.solvent link

omit [DecidableEq B] [DecidableEq P] [DecidableEq E] [DecidableEq N] [DecidableEq C] in
/-- Something is waiting for a handler unless nothing is in flight. -/
theorem exists_pending (id : N → Int32) (h : ¬ Quiescent s) :
    ∃ a, Handles id a ∧ Pending s a := by
  simp only [Quiescent, not_and_or, not_forall] at h
  rcases h with ⟨⟨b, p⟩, h⟩ | ⟨⟨p, e⟩, h⟩ | ⟨⟨e, p⟩, h⟩ | ⟨⟨n, e⟩, h⟩ | ⟨⟨e, n⟩, h⟩ |
    ⟨⟨c, n⟩, h⟩ | ⟨⟨n, c⟩, h⟩
  · exact ⟨.pumpOnPublish b p default, ⟨rfl, by simp [Action.forwarded]⟩, h⟩
  · exact ⟨.engineOnPrepare p e default default, ⟨rfl, by simp [Action.forwarded]⟩, h⟩
  · exact ⟨.pumpOnPrepareAck e p, ⟨rfl, by simp [Action.forwarded]⟩, h⟩
  · exact ⟨.engineOnUpdate n e, ⟨rfl, by simp [Action.forwarded]⟩, h⟩
  · exact ⟨.nuzzleOnPublish e n, ⟨rfl, by simp [Action.forwarded]⟩, h⟩
  · -- the local struct of the handler happens to hold the nuzzle's identifier
    refine ⟨.nuzzleOnUpdate c n fun _ => { (default : RequestUpdateSubscription) with
      header := { (default : RequestHeader) with senderId := id n } }, ⟨rfl, ?_⟩, h⟩
    rintro f hf e
    obtain rfl := Option.some.inj hf
    rfl
  · exact ⟨.consumerOnPublish n c 0 0, ⟨rfl, by simp [Action.forwarded]⟩, h⟩

omit [DecidableEq B] [DecidableEq P] [DecidableEq E] [DecidableEq N] [DecidableEq C] in
theorem Quiescent.not_pending (h : Quiescent s) : ¬ Pending s a := by
  obtain ⟨hpublishes, hprepares, hacks, hupdates, hfanouts, hrequests, hdeliveries⟩ := h
  cases a with
  | pumpOnPublish b p => exact fun hp => hp (hpublishes (b, p))
  | pumpOnPrepareAck e p => exact fun hp => hp (hacks (e, p))
  | engineOnPrepare p e => exact fun hp => hp (hprepares (p, e))
  | engineOnUpdate n e => exact fun hp => hp (hupdates (n, e))
  | nuzzleOnPublish e n => exact fun hp => hp (hfanouts (e, n))
  | nuzzleOnUpdate c n => exact fun hp => hp (hrequests (c, n))
  | consumerOnPublish n c => exact fun hp => hp (hdeliveries (n, c))
  | _ => exact fun hp => hp

/-- Where a handler can be called exactly when a message is waiting for it, none can exactly
when nothing is in flight. -/
theorem stuck_iff_quiescent
    (hdefined : ∀ a, a.isHandler = true → ((next s a).isSome = true ↔ Pending s a)) :
    (∀ a, a.isHandler = true → next s a = none) ↔ Quiescent s := by
  constructor
  · intro hstuck
    by_contra hbusy
    obtain ⟨a, ha, hpending⟩ := exists_pending (fun _ => 0) hbusy
    have hsome := (hdefined a ha.1).mpr hpending
    simp [hstuck a ha.1] at hsome
  · intro hquiet a hhandler
    have hnot := mt (hdefined a hhandler).mp hquiet.not_pending
    simpa using hnot

/-- The handlers do not run for ever. -/
theorem not_endless [Fintype B] [Fintype P] [Fintype E] [Fintype N] [Fintype C]
    (f : Nat → State B P E N C) :
    ¬ ∀ i, ∃ a, a.isHandler = true ∧ next (f i) a = some (f (i + 1)) := by
  intro hsteps
  obtain ⟨_, ⟨i, rfl⟩, hlast⟩ := handlers_wellFounded.has_min (Set.range f) ⟨f 0, 0, rfl⟩
  exact hlast (f (i + 1)) ⟨i + 1, rfl⟩ (hsteps i)

section Rest

variable [Fintype B] [Fintype P] [Fintype E] [Fintype N] [Fintype C]
variable {I : State B P E N C → Prop} {H : Action B P E N C → Prop}

/-- What keeps every waiting message answerable lets the handlers bring the system to rest;
whatever order they run in, they do not run for ever and are not stuck before it is at rest. -/
theorem drains_of (hhandler : ∀ a, H a → a.isHandler = true)
    (hpending : ∀ s : State B P E N C, ¬ Quiescent s → ∃ a, H a ∧ Pending s a)
    (hdefined : ∀ s, I s → ∀ a, a.isHandler = true → ((next s a).isSome = true ↔ Pending s a))
    (hnext : ∀ s a s', I s → H a → next s a = some s' → I s') (hinit : I s) :
    (∃ rest s', Run (Steps next) s rest s' ∧ (∀ x ∈ rest, H x.2) ∧ Quiescent s') ∧
      (∀ f : Nat → State B P E N C, f 0 = s →
        ¬ ∀ i, ∃ a, H a ∧ next (f i) a = some (f (i + 1))) ∧
      ∀ rest s', Run (Steps next) s rest s' → (∀ x ∈ rest, H x.2) →
        ((∀ a, a.isHandler = true → next s' a = none) ↔ Quiescent s') := by
  refine ⟨?_, fun f _ hsteps => not_endless f fun i => ?_, fun rest s' hrun hhandles => ?_⟩
  · have hwf : WellFounded fun s' s : State B P E N C => ∃ a, H a ∧ next s a = some s' :=
      Subrelation.wf (fun ⟨a, ha, hone⟩ => ⟨a, hhandler a ha, hone⟩) handlers_wellFounded
    have hprogress : ∀ s : State B P E N C, I s → ¬ Quiescent s →
        ∃ a s', H a ∧ Steps next s a s' ∧ I s' := by
      intro s hinv hbusy
      obtain ⟨a, ha, hwaits⟩ := hpending s hbusy
      obtain ⟨s', hone⟩ := Option.isSome_iff_exists.mp
        ((hdefined s hinv a (hhandler a ha)).mpr hwaits)
      exact ⟨a, s', ha, hone, hnext s a s' hinv ha hone⟩
    obtain ⟨rest, s', hrun, hhandles, -, hquiet⟩ :=
      Run.exists_to_of_wellFounded hwf hprogress s hinit
    exact ⟨rest, s', hrun, hhandles, hquiet⟩
  · obtain ⟨a, ha, hone⟩ := hsteps i
    exact ⟨a, hhandler a ha, hone⟩
  · have hinv : I s' := hrun.invariant (C := fun _ a => H a) hhandles hinit
      fun s a s' hinv ha hone => hnext s a s' hinv ha hone
    exact stuck_iff_quiescent (hdefined s' hinv)

end Rest

/-- From every state of an orderly run in which no consumer takes back a subscription it
does not have, the handlers can bring the system to rest, and whatever order they run in,
they do not run for ever and are not stuck before it is at rest. -/
theorem drains [Fintype B] [Fintype P] [Fintype E] [Fintype N] [Fintype C]
    {groupSize : UInt16} {trace : Trace B P E N C} (h : Runs groupSize trace s)
    (horderly : Orderly id trace) (hsolvent : ∀ link, Solvent (s.requests link).sent) :
    (∃ rest s', Run (Steps next) s rest s' ∧ (∀ x ∈ rest, Handles id x.2) ∧ Quiescent s') ∧
      (∀ f : Nat → State B P E N C, f 0 = s →
        ¬ ∀ i, ∃ a, Handles id a ∧ next (f i) a = some (f (i + 1))) ∧
      ∀ rest s', Run (Steps next) s rest s' → (∀ x ∈ rest, Handles id x.2) →
        ((∀ a, a.isHandler = true → next s' a = none) ↔ Quiescent s') := by
  have hinit : Answerable id s := ⟨(sound_start groupSize).run h horderly, hsolvent⟩
  exact drains_of (fun _ ha => ha.1) (fun _ => exists_pending id)
    (fun _ hinv _ => hinv.sound.isSome_next_iff hinv.solvent)
    (fun _ _ _ => answerable_next) hinit

/-- There the unsubscribe is on its way to the engine, and gets there. -/
theorem drains_subscribeUnsubscribe :
    ∃ (trace : Trace (Fin 1) (Fin 1) (Fin 1) (Fin 1) (Fin 1))
      (s : State (Fin 1) (Fin 1) (Fin 1) (Fin 1) (Fin 1)), Runs 1 trace s ∧ ¬ Quiescent s ∧
        ∃ rest s', Run (Steps next) s rest s' ∧ (∀ x ∈ rest, Handles (fun _ => 0) x.2) ∧
          Quiescent s' := by
  obtain ⟨trace, s, hrun, hid, hfirst, hsolvent, hbusy⟩ :=
    exists_run_of_execute (subscribeUnsubscribe 0 0 0) next
      (start 1 : State (Fin 1) (Fin 1) (Fin 1) (Fin 1) (Fin 1))
      (fun trace s => FixedClientId (fun _ => 0) trace ∧
        (∀ x ∈ trace, ∀ n ∈ x.2.connecting, ∀ c, (x.1.requests (c, n)).received = []) ∧
        (∀ link, Solvent (s.requests link).sent) ∧ ¬ Quiescent s)
      (by decide +kernel)
  exact ⟨trace, s, hrun, hbusy,
    (drains hrun (orderly_of_connectedFirst hrun hid hfirst) hsolvent).1⟩

end State

end Firehose.Cluster
