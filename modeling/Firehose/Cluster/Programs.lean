import Firehose.Cluster.Identity
import Firehose.Cluster.Routing
import Firehose.Node.Mains

set_option autoImplicit false

/-!
# The system under its programs

The parties do not call themselves: what a publisher, a pump, a nuzzle or a consumer does on
its own is what its `main` calls next.  The programs take their arguments from the command
line and know nothing of each other, so their calls mix in any order with each other and with
the handlers that the network threads call.
-/

namespace Firehose.Cluster

open Firehose.Api Firehose.Foundation Firehose.Node
open Function (update)

/-- What the programs are started with: the addresses and the ranges of topics of their
command lines, and what the requests of the clients hold before they are set. -/
structure Arguments (B P E N C : Type) where
  pumps : B → List P
  topics : B → Int64 × Int64
  publishMemory : B → RequestPublish
  pumpEngines : P → List E
  nuzzleEngines : N → List E
  nuzzles : C → List N
  range : C → Int64 × Int64
  updateMemory : C → RequestUpdateSubscription

/-- The local variables of all programs. -/
structure Mains (B P E N C : Type) where
  publisher : B → PublisherMain P
  /-- The engines a pump is still to be connected to. -/
  pump : P → List E
  /-- The engines a nuzzle is still to be connected to. -/
  nuzzle : N → List E
  consumer : C → ConsumerMain N

/-- A call of a program or of a network thread, or a turn of a publisher's outer loop. -/
inductive Move (B P E N C : Type)
  | call (a : Action B P E N C)
  | startOver (b : B)

/-- The call that is made. -/
def Move.called {B P E N C : Type} : Move B P E N C → Option (Action B P E N C)
  | .call a => some a
  | .startOver _ => none

namespace Mains

variable {B P E N C : Type}

/-- Every program before its first call. -/
def start (args : Arguments B P E N C) : Mains B P E N C where
  publisher := fun b => .start (args.pumps b) (args.publishMemory b) (args.topics b).1
  pump := args.pumpEngines
  nuzzle := args.nuzzleEngines
  consumer := fun c => .start (args.nuzzles c) (args.updateMemory c) (args.range c).1

variable [DecidableEq B] [DecidableEq P] [DecidableEq E] [DecidableEq N] [DecidableEq C]

/-- The programs after a call, if it is one that a program makes next or a handler. -/
def call (args : Arguments B P E N C) (mains : Mains B P E N C) :
    Action B P E N C → Option (Mains B P E N C)
  | .connectToPump b p => ((mains.publisher b).connect p).map fun main =>
      { mains with publisher := update mains.publisher b main }
  | .pumpConnectToEngine p e => (nextAddress (mains.pump p) e).map fun engines =>
      { mains with pump := update mains.pump p engines }
  | .nuzzleConnectToEngine n e => (nextAddress (mains.nuzzle n) e).map fun engines =>
      { mains with nuzzle := update mains.nuzzle n engines }
  | .connectToNuzzle c n => ((mains.consumer c).connect n).map fun main =>
      { mains with consumer := update mains.consumer c main }
  | .publish b now request =>
      ((mains.publisher b).publish (args.topics b).2 now request).map fun main =>
        { mains with publisher := update mains.publisher b main }
  | .updateSubscribtion c request =>
      ((mains.consumer c).subscribe (args.range c).2 request).map fun main =>
        { mains with consumer := update mains.consumer c main }
  | _ => some mains

/-- The outer loop of a publisher starts the inner one again. -/
def startOver (args : Arguments B P E N C) (mains : Mains B P E N C) (b : B) :
    Option (Mains B P E N C) :=
  ((mains.publisher b).startOver (args.topics b).1 (args.topics b).2).map fun main =>
    { mains with publisher := update mains.publisher b main }

def next (args : Arguments B P E N C) (mains : Mains B P E N C) :
    Move B P E N C → Option (Mains B P E N C)
  | .call a => mains.call args a
  | .startOver b => mains.startOver args b

end Mains

/-- The system and its programs. -/
structure Running (B P E N C : Type) where
  state : State B P E N C
  mains : Mains B P E N C

namespace Running

variable {B P E N C : Type}

def start (args : Arguments B P E N C) (groupSize : UInt16) : Running B P E N C where
  state := .start groupSize
  mains := .start args

variable [DecidableEq B] [DecidableEq P] [DecidableEq E] [DecidableEq N] [DecidableEq C]

/-- A call is one of the programs or of a network thread, and the parties make it. -/
def next (args : Arguments B P E N C) (r : Running B P E N C) :
    Move B P E N C → Option (Running B P E N C)
  | .call a =>
      match r.state.next a, r.mains.call args a with
      | some state, some mains => some ⟨state, mains⟩
      | _, _ => none
  | .startOver b => (r.mains.startOver args b).map fun mains => { r with mains := mains }

/-- The runs of the system under its programs. -/
abbrev Runs (args : Arguments B P E N C) (groupSize : UInt16)
    (moves : List (Running B P E N C × Move B P E N C)) (r : Running B P E N C) : Prop :=
  Run (Steps (next args)) (start args groupSize) moves r

variable {args : Arguments B P E N C} {groupSize : UInt16} {r r' : Running B P E N C}
variable {moves : List (Running B P E N C × Move B P E N C)}

theorem call_next {a : Action B P E N C} (h : next args r (.call a) = some r') :
    r.state.next a = some r'.state ∧ r.mains.call args a = some r'.mains := by
  simp only [next] at h
  split at h
  · rename_i state mains hstate hmains
    obtain rfl := Option.some.inj h
    exact ⟨hstate, hmains⟩
  · simp at h

theorem startOver_next {b : B} (h : next args r (.startOver b) = some r') :
    r'.state = r.state ∧ r.mains.startOver args b = some r'.mains := by
  obtain ⟨mains, hmains, rfl⟩ := Option.map_eq_some_iff.mp h
  exact ⟨rfl, hmains⟩

/-- The steps of the system in a run under its programs. -/
def called (moves : List (Running B P E N C × Move B P E N C)) : Trace B P E N C :=
  projectTrace Running.state (fun _ m => m.called) moves

theorem state_simulates (r : Running B P E N C) (m : Move B P E N C) (r' : Running B P E N C)
    (h : Steps (next args) r m r') :
    Simulates (Steps State.next) Running.state (fun _ m => m.called) r m r' := by
  cases m with
  | call a => exact (call_next h).1
  | startOver b => exact (startOver_next h).1

/-- A run under the programs is a run of the system. -/
theorem Runs.state (h : Runs args groupSize moves r) :
    State.Runs groupSize (called moves) r.state :=
  h.project state_simulates

end Running

/-! ## What the publishers send -/

namespace State

variable {B P E N C : Type}
variable [DecidableEq B] [DecidableEq P] [DecidableEq E] [DecidableEq N] [DecidableEq C]

/-- Nobody but a publisher's program moves its publisher or sends over its connections. -/
theorem publisher_next {s s' : State B P E N C} {a : Action B P E N C}
    (h : next s a = some s') (hconnect : ∀ b p, a ≠ .connectToPump b p)
    (hpublish : ∀ b now request, a ≠ .publish b now request) :
    s'.publisher = s.publisher ∧
      ∀ link, (s'.publishes link).sent = (s.publishes link).sent := by
  cases a with
  | connectToPump b p => exact absurd rfl (hconnect b p)
  | publish b now request => exact absurd rfl (hpublish b now request)
  | pumpConnectToEngine =>
      obtain ⟨-, rfl⟩ := pumpConnectToEngine_next h
      exact ⟨rfl, fun _ => rfl⟩
  | nuzzleConnectToEngine =>
      obtain ⟨-, rfl⟩ := nuzzleConnectToEngine_next h
      exact ⟨rfl, fun _ => rfl⟩
  | connectToNuzzle =>
      obtain rfl := connectToNuzzle_next h
      exact ⟨rfl, fun _ => rfl⟩
  | updateSubscribtion =>
      obtain ⟨_, _, -, rfl⟩ := updateSubscribtion_next h
      exact ⟨rfl, fun _ => rfl⟩
  | pumpOnPublish =>
      obtain ⟨_, _, _, hpop, -, rfl⟩ := pumpOnPublish_next h
      exact ⟨rfl, Channel.sent_update_pop? hpop⟩
  | pumpOnPrepareAck =>
      obtain ⟨_, _, -, rfl⟩ := pumpOnPrepareAck_next h
      exact ⟨rfl, fun _ => rfl⟩
  | engineOnPrepare =>
      obtain ⟨_, _, _, -, -, rfl⟩ := engineOnPrepare_next h
      exact ⟨rfl, fun _ => rfl⟩
  | engineOnUpdate =>
      obtain ⟨_, _, _, -, -, rfl⟩ := engineOnUpdate_next h
      exact ⟨rfl, fun _ => rfl⟩
  | nuzzleOnPublish =>
      obtain ⟨_, _, _, -, -, rfl⟩ := nuzzleOnPublish_next h
      exact ⟨rfl, fun _ => rfl⟩
  | nuzzleOnUpdate =>
      obtain ⟨_, _, _, _, -, -, rfl⟩ := nuzzleOnUpdate_next h
      exact ⟨rfl, fun _ => rfl⟩
  | consumerOnPublish =>
      obtain ⟨_, _, -, rfl⟩ := consumerOnPublish_next h
      exact ⟨rfl, fun _ => rfl⟩

end State

namespace Mains

variable {B P E N C : Type}
variable [DecidableEq B] [DecidableEq P] [DecidableEq E] [DecidableEq N] [DecidableEq C]

/-- The calls of the other programs leave the publishers' programs alone. -/
theorem publisher_call {args : Arguments B P E N C} {mains mains' : Mains B P E N C}
    {a : Action B P E N C} (h : mains.call args a = some mains')
    (hconnect : ∀ b p, a ≠ .connectToPump b p)
    (hpublish : ∀ b now request, a ≠ .publish b now request) :
    mains'.publisher = mains.publisher := by
  cases a with
  | connectToPump b p => exact absurd rfl (hconnect b p)
  | publish b now request => exact absurd rfl (hpublish b now request)
  | pumpConnectToEngine | nuzzleConnectToEngine | connectToNuzzle | updateSubscribtion =>
      obtain ⟨_, -, rfl⟩ := Option.map_eq_some_iff.mp h
      rfl
  | pumpOnPublish | pumpOnPrepareAck | engineOnPrepare | engineOnUpdate | nuzzleOnPublish
    | nuzzleOnUpdate | consumerOnPublish =>
      obtain rfl := Option.some.inj h
      rfl

end Mains

namespace Running

variable {B P E N C : Type}
variable [DecidableEq B] [DecidableEq P] [DecidableEq E] [DecidableEq N] [DecidableEq C]
variable {args : Arguments B P E N C} {groupSize : UInt16} {r r' : Running B P E N C}
variable {moves : List (Running B P E N C × Move B P E N C)} {b : B}

/-- A publisher has sent by its program, and each connection carries its part of that. -/
structure Sends (args : Arguments B P E N C) (b : B) (sent : List (P × RequestPublish))
    (r : Running B P E N C) : Prop where
  follows : PublisherMain.Follows (args.pumps b) (args.publishMemory b) (args.topics b).1
    (args.topics b).2 (r.state.publisher b) (r.mains.publisher b) sent
  publishes : ∀ p, (r.state.publishes (b, p)).sent =
    Channel.addressedTo p (sent.map fun x => (x.1, Publisher.MsgPublishReqTx.set x.2))

omit [DecidableEq B] [DecidableEq E] [DecidableEq N] [DecidableEq C] in
theorem sends_start : Sends args b [] (start args groupSize) where
  follows := PublisherMain.follows_start
  publishes := fun _ => rfl

omit [DecidableEq B] [DecidableEq E] [DecidableEq N] [DecidableEq C] in
/-- Another publisher's step, or one that is no publisher's. -/
theorem Sends.other {sent : List (P × RequestPublish)} (h : Sends args b sent r)
    (hpublisher : r'.state.publisher b = r.state.publisher b)
    (hpublishes : ∀ p, (r'.state.publishes (b, p)).sent = (r.state.publishes (b, p)).sent)
    (hmains : r'.mains.publisher b = r.mains.publisher b) : Sends args b sent r' where
  follows := by
    rw [hpublisher, hmains]
    exact h.follows
  publishes := fun p => (hpublishes p).trans (h.publishes p)

theorem Sends.connectToPump {sent : List (P × RequestPublish)} (h : Sends args b sent r)
    {b' : B} {p : P} (hstep : next args r (.call (.connectToPump b' p)) = some r') :
    Sends args b sent r' := by
  obtain ⟨hstate, hmains⟩ := call_next hstep
  have hafter := State.connectToPump_next hstate
  obtain ⟨main, hmain, hmains'⟩ := Option.map_eq_some_iff.mp hmains
  by_cases hb : b = b'
  · subst hb
    refine ⟨?_, fun q => ?_⟩
    · rw [hafter, ← hmains']
      simp only [Function.update_self]
      exact h.follows.connect hmain
    · rw [hafter]
      exact h.publishes q
  · refine h.other ?_ (fun q => ?_) ?_
    · rw [hafter]
      exact Function.update_of_ne hb _ _
    · rw [hafter]
    · rw [← hmains']
      exact Function.update_of_ne hb _ _

theorem Sends.publish {sent : List (P × RequestPublish)} (h : Sends args b sent r)
    {b' : B} {now : UInt64} {request : RequestPublish}
    (hstep : next args r (.call (.publish b' now request)) = some r') :
    ∃ sent', Sends args b sent' r' := by
  obtain ⟨hstate, hmains⟩ := call_next hstep
  obtain ⟨publisher, p, stamped, hpublish, hafter⟩ := State.publish_next hstate
  obtain ⟨main, hmain, hmains'⟩ := Option.map_eq_some_iff.mp hmains
  by_cases hb : b = b'
  · subst hb
    refine ⟨sent ++ [(p, stamped)], ?_, fun q => ?_⟩
    · rw [hafter, ← hmains']
      simp only [Function.update_self]
      exact h.follows.publish hmain hpublish
    · rw [hafter, Channel.sent_post_self, h.publishes q]
      simp only [Channel.addressedTo, List.map_append, List.map_singleton, List.filter_append]
  · refine ⟨sent, h.other ?_ (fun q => ?_) ?_⟩
    · rw [hafter]
      exact Function.update_of_ne hb _ _
    · rw [hafter]
      exact Channel.sent_post_ne _ q _ hb
    · rw [← hmains']
      exact Function.update_of_ne hb _ _

theorem Sends.startOver {sent : List (P × RequestPublish)} (h : Sends args b sent r) {b' : B}
    (hstep : next args r (.startOver b') = some r') : Sends args b sent r' := by
  obtain ⟨hstate, hmains⟩ := startOver_next hstep
  obtain ⟨main, hmain, hmains'⟩ := Option.map_eq_some_iff.mp hmains
  by_cases hb : b = b'
  · subst hb
    refine ⟨?_, fun p => ?_⟩
    · rw [hstate, ← hmains']
      simp only [Function.update_self]
      exact h.follows.startOver hmain
    · rw [hstate]
      exact h.publishes p
  · refine h.other (by rw [hstate]) (fun p => by rw [hstate]) ?_
    rw [← hmains']
    exact Function.update_of_ne hb _ _

theorem Sends.next {sent : List (P × RequestPublish)} (h : Sends args b sent r)
    {m : Move B P E N C} (hstep : Running.next args r m = some r') :
    ∃ sent', Sends args b sent' r' := by
  cases m with
  | startOver b' => exact ⟨sent, h.startOver hstep⟩
  | call a =>
      have hother : (∀ b p, a ≠ .connectToPump b p) →
          (∀ b now request, a ≠ .publish b now request) → Sends args b sent r' := by
        intro hconnect hpublish
        obtain ⟨hstate, hmains⟩ := call_next hstep
        obtain ⟨hpublisher, hpublishes⟩ := State.publisher_next hstate hconnect hpublish
        exact h.other (by rw [hpublisher]) (fun p => hpublishes (b, p))
          (by rw [Mains.publisher_call hmains hconnect hpublish])
      cases a with
      | connectToPump b' p => exact ⟨sent, h.connectToPump hstep⟩
      | publish b' now request => exact h.publish hstep
      | _ => exact ⟨sent, hother (by simp) (by simp)⟩

theorem sends_run (h : Runs args groupSize moves r) (b : B) : ∃ sent, Sends args b sent r :=
  h.keeps (I := fun r => ∃ sent, Sends args b sent r) ⟨[], sends_start⟩
    fun _ _ _ ⟨_, hinv⟩ hstep => hinv.next hstep

end Running

/-! ## Which pump a topic goes to -/

/-- The command lines of the publishers fit together: all go round the same pumps, their
number divides the number of topics of each, and the ranges begin at the same pump. -/
structure Arguments.Aligned {B P E N C : Type} (args : Arguments B P E N C) (pumps : List P) :
    Prop where
  pumps_eq : ∀ b, args.pumps b = pumps
  ne_nil : pumps ≠ []
  nodup : pumps.Nodup
  few : pumps.length < 2 ^ 31
  bound : ∀ b, (args.topics b).2.toUInt64.toNat + 1 < 2 ^ 64
  divides : ∀ b, pumps.length ∣ Publishing.topicCount (args.topics b).1 (args.topics b).2
  begins : ∀ b b', (args.topics b).1.toUInt64.toNat ≡ (args.topics b').1.toUInt64.toNat
    [MOD pumps.length]

namespace Running

variable {B P E N C : Type}
variable [DecidableEq B] [DecidableEq P] [DecidableEq E] [DecidableEq N] [DecidableEq C]
variable {args : Arguments B P E N C} {groupSize : UInt16} {r : Running B P E N C}
variable {moves : List (Running B P E N C × Move B P E N C)} {pumps : List P}

omit [DecidableEq B] [DecidableEq E] [DecidableEq N] [DecidableEq C] in
/-- The topic of a message tells the place of the pump it has been sent to. -/
theorem Sends.place {b : B} {sent : List (P × RequestPublish)} (h : Sends args b sent r)
    (haligned : args.Aligned pumps) {p : P} {m : RequestPublishProto}
    (hm : m ∈ (r.state.publishes (b, p)).sent) :
    ∃ q, pumps[q]? = some p ∧
      (args.topics b).1.toUInt64.toNat + q ≡ m.topicId.toNat [MOD pumps.length] := by
  rw [h.publishes p, Channel.mem_addressedTo, List.mem_map] at hm
  obtain ⟨x, hx, heq⟩ := hm
  obtain ⟨rfl, rfl⟩ := Prod.mk.inj heq
  obtain ⟨j, hj⟩ := List.mem_iff_getElem?.mp hx
  have hfollows := h.follows
  rw [haligned.pumps_eq b] at hfollows
  have hturn := hfollows.turn haligned.nodup haligned.ne_nil haligned.few (haligned.bound b) hj
  refine ⟨j % pumps.length, hturn.pump, ?_⟩
  have htopic : (Publisher.MsgPublishReqTx.set x.2).topicId.toNat = _ := hturn.topicId
  rw [htopic]
  refine Nat.ModEq.add_left _ ((Nat.mod_modEq j _).trans ?_)
  exact ((Nat.mod_modEq j _).of_dvd (haligned.divides b)).symm

/-- Messages on one topic go to one pump, whoever sends them and whenever. -/
theorem pump_of_topic {r' : Running B P E N C}
    {moves' : List (Running B P E N C × Move B P E N C)} (h : Runs args groupSize moves r)
    (h' : Runs args groupSize moves' r') (haligned : args.Aligned pumps)
    {b b' : B} {p p' : P} {m m' : RequestPublishProto}
    (hm : m ∈ (r.state.publishes (b, p)).sent) (hm' : m' ∈ (r'.state.publishes (b', p')).sent)
    (htopic : m.topicId = m'.topicId) : p = p' := by
  obtain ⟨sent, hsends⟩ := sends_run h b
  obtain ⟨sent', hsends'⟩ := sends_run h' b'
  obtain ⟨q, hq, hplace⟩ := hsends.place haligned hm
  obtain ⟨q', hq', hplace'⟩ := hsends'.place haligned hm'
  rw [htopic] at hplace
  have hsame : q ≡ q' [MOD pumps.length] :=
    (haligned.begins b b').add_left_cancel (hplace.trans hplace'.symm)
  have heq : q = q' := hsame.eq_of_lt_of_lt (List.getElem?_eq_some_iff.mp hq).1
    (List.getElem?_eq_some_iff.mp hq').1
  subst heq
  exact Option.some.inj (hq.symm.trans hq')

/-- What a pump handles under the programs has been sent to it. -/
theorem exists_sent_of_handled (h : Runs args groupSize moves r) {p : P} {x : Handled E}
    (hx : x ∈ State.handledBy p (called moves)) :
    ∃ moves' r' b, Runs args groupSize moves' r' ∧
      x.publish ∈ (r'.state.publishes (b, p)).sent := by
  obtain ⟨⟨s, a⟩, hsa, hhandled⟩ := List.mem_filterMap.mp hx
  obtain ⟨y, hy, hcalled⟩ := List.mem_filterMap.mp hsa
  obtain ⟨a', -, heq⟩ := Option.map_eq_some_iff.mp hcalled
  obtain ⟨rfl, rfl⟩ := Prod.mk.inj heq
  obtain ⟨-, b, hsent⟩ := State.handledAt_eq_some hhandled
  obtain ⟨t₁, t₂, r', rfl, hbefore, -, -⟩ := h.around hy
  exact ⟨t₁, y.1, b, hbefore, hsent⟩

/-- Under publishers whose command lines fit together every topic keeps to one pump, and so
the keys of the messages are unique across the system. -/
theorem topics_apart (h : Runs args groupSize moves r) (haligned : args.Aligned pumps)
    (hfew : ∀ p, (State.handledBy p (called moves)).length ≤ 2 ^ 64) :
    (∀ b b' p p' m m', m ∈ (r.state.publishes (b, p)).sent →
      m' ∈ (r.state.publishes (b', p')).sent → m.topicId = m'.topicId → p = p') ∧
    State.IdentityUnique (called moves) := by
  refine ⟨fun b b' p p' m m' hm hm' => pump_of_topic h h haligned hm hm', ?_⟩
  refine State.TopicsApart.identityUnique ?_ h.state hfew
  intro p q hne k x y hx hy _ _ htopic
  obtain ⟨_, _, b, hrun, hsent⟩ := exists_sent_of_handled h (List.mem_of_getElem? hx)
  obtain ⟨_, _, b', hrun', hsent'⟩ := exists_sent_of_handled h (List.mem_of_getElem? hy)
  exact hne (pump_of_topic hrun hrun' haligned hsent hsent' htopic)

/-- Two publishers with two pumps: one publishes on the topics 0 and 1, the other on 2 to 5. -/
def twoRanges : Arguments (Fin 2) (Fin 2) (Fin 1) (Fin 1) (Fin 1) where
  pumps := fun _ => [0, 1]
  topics := fun b => if b = 0 then (0, 1) else (2, 5)
  publishMemory := fun _ => default
  pumpEngines := fun _ => [0]
  nuzzleEngines := fun _ => []
  nuzzles := fun _ => []
  range := fun _ => (0, 0)
  updateMemory := fun _ => default

theorem twoRanges_aligned : twoRanges.Aligned [0, 1] where
  pumps_eq := fun _ => rfl
  ne_nil := by decide
  nodup := by decide
  few := by decide
  bound := by decide
  divides := by decide
  begins := by decide

/-- What a publisher's program publishes after a message with the time `stamp`. -/
def numbered (globalId topic stamp : UInt64) : RequestPublish :=
  { RequestPublish.declared default with
    timestamp := stamp
    globalId := globalId
    topicId := topic
    message := List.replicate 1024 120 }

/-- Three messages are published and handled, two of them by the first pump. -/
def threeHandled : List (Move (Fin 2) (Fin 2) (Fin 1) (Fin 1) (Fin 1)) :=
  [.call (.pumpConnectToEngine 0 0), .call (.pumpConnectToEngine 1 0),
    .call (.connectToPump 0 0), .call (.connectToPump 0 1), .call (.connectToPump 1 0),
    .call (.connectToPump 1 1), .call (.publish 0 5 (numbered 1 0 0)),
    .call (.publish 1 6 (numbered 1 2 0)), .call (.publish 0 7 (numbered 2 1 5)),
    .startOver 0, .call (.pumpOnPublish 0 0 default), .call (.pumpOnPublish 1 0 default),
    .call (.pumpOnPublish 0 1 default)]

theorem topics_apart_threeHandled :
    ∃ (moves : List (Running (Fin 2) (Fin 2) (Fin 1) (Fin 1) (Fin 1) ×
        Move (Fin 2) (Fin 2) (Fin 1) (Fin 1) (Fin 1)))
      (r : Running (Fin 2) (Fin 2) (Fin 1) (Fin 1) (Fin 1)), Runs twoRanges 1 moves r ∧
        (State.handledBy 0 (called moves)).length = 2 ∧
        (State.handledBy 1 (called moves)).length = 1 ∧
        State.IdentityUnique (called moves) := by
  obtain ⟨moves, r, hrun, hfirst, hsecond⟩ :=
    exists_run_of_execute threeHandled (next twoRanges) (start twoRanges 1)
      (fun moves _ => (State.handledBy 0 (called moves)).length = 2 ∧
        (State.handledBy 1 (called moves)).length = 1) (by decide +kernel)
  have hfew : ∀ p, (State.handledBy p (called moves)).length ≤ 2 ^ 64 := by
    intro p
    match p with
    | 0 => rw [hfirst]; decide
    | 1 => rw [hsecond]; decide
  exact ⟨moves, r, hrun, hfirst, hsecond, (topics_apart hrun twoRanges_aligned hfew).2⟩

end Running

end Firehose.Cluster
