import Firehose.Cluster.Draining
import Firehose.Cluster.Fitting
import Firehose.Network.Settling

set_option autoImplicit false

/-!
# The deployed system comes to rest

Once the clients are silent, the handlers and the ends of the connections have only so much
to do.  What a handler sends goes in a direction of a later stage than the one it takes its
message from, and on each connection every step leaves less to be done; so they come to an
end, whatever fails.  If nothing fails, they end with every message handled.
-/

namespace Firehose.Cluster

open Firehose.Api Firehose.Foundation Firehose.Network Firehose.Node
open Function (update)

namespace Direction

/-- A handler sends in directions of a later stage than the one it takes its message from. -/
def stage {B P E N C : Type} : Direction B P E N C → Fin 7
  | publish _ => 0
  | request _ => 1
  | prepare _ => 2
  | update _ => 3
  | fanout _ => 4
  | ack _ => 5
  | delivery _ => 6

/-- What a nuzzle may find in memory: its own identifier. -/
def heldBy {N : Type} (id : N → Int32) (n : N) : RequestUpdateSubscription :=
  { (default : RequestUpdateSubscription) with
    header := { (default : RequestHeader) with senderId := id n } }

/-- The handler of what arrives in a direction, with what it may find in memory. -/
def answer {B P E N C : Type} (id : N → Int32) : Direction B P E N C → Action B P E N C
  | publish (b, p) => .pumpOnPublish b p default
  | prepare (p, e) => .engineOnPrepare p e default default
  | ack (e, p) => .pumpOnPrepareAck e p
  | update (n, e) => .engineOnUpdate n e
  | fanout (e, n) => .nuzzleOnPublish e n
  | request (c, n) => .nuzzleOnUpdate c n fun _ => heldBy id n
  | delivery (n, c) => .consumerOnPublish n c 0 0

theorem handles_answer {B P E N C : Type} (id : N → Int32) (d : Direction B P E N C) :
    State.Handles id (d.answer id) := by
  cases d with
  | publish | prepare | ack | update | fanout | delivery =>
      exact ⟨rfl, by simp [answer, Action.forwarded]⟩
  | request ends =>
      refine ⟨rfl, fun f hf e => ?_⟩
      obtain rfl := Option.some.inj hf
      rfl

end Direction

/-- The clients are silent: a handler is called, or an end of a connection goes on. -/
def DeployedAction.Goes {B P E N C T : Type} (id : N → Int32) :
    DeployedAction B P E N C T → Prop
  | .link .. | .ignored .. => True
  | .party a _ _ _ => State.Handles id a

/-! ## What a handler does to the connections -/

namespace Links

variable {B P E N C T : Type} {proto : Protobuf} {links links' links'' : Links B P E N C T}
variable {d : Direction B P E N C}
variable [DecidableEq B] [DecidableEq P] [DecidableEq E] [DecidableEq N] [DecidableEq C]
variable [DecidableEq T]

/-- Sending leaves the other connections alone. -/
theorem sendAll_eq {threads : Nat → T} {i : Nat} {out : List (Direction B P E N C × MessageTx)}
    (h : sendAll proto threads i links out = some links') (hne : ∀ o ∈ out, o.1 ≠ d) :
    links' d = links d := by
  induction out generalizing links i with
  | nil =>
      obtain rfl := Option.some.inj h
      rfl
  | cons o rest ih =>
      obtain ⟨d', m⟩ := o
      simp only [sendAll] at h
      split at h
      · simp at h
      · have hd : d ≠ d' := fun heq => hne (d', m) (by simp) heq.symm
        rw [ih h fun o ho => hne o (List.mem_cons_of_mem _ ho), Function.update_of_ne hd]

/-- A message has been read, and nothing sent at the stages up to its own. -/
def Answered (proto : Protobuf) (links : Links B P E N C T) (d : Direction B P E N C)
    (now : UInt64) (links' : Links B P E N C T) : Prop :=
  (∃ r, (links d).receive (handler proto d) now = some (r, links' d)) ∧
    ∀ d', d' ≠ d → d'.stage ≤ d.stage → links' d' = links d'

theorem answered_take {now : UInt64} {m : d.cls.Proto}
    (h : take proto links d now = some (m, links')) : Answered proto links d now links' := by
  simp only [take] at h
  split at h
  · simp at h
  · rename_i r link hreceive
    obtain ⟨m', -, heq⟩ := Option.map_eq_some_iff.mp h
    obtain ⟨-, rfl⟩ := Prod.mk.inj heq
    refine ⟨⟨r, ?_⟩, fun d' hne _ => Function.update_of_ne hne _ _⟩
    rw [hreceive, Function.update_self]

theorem Answered.sendAll {now : UInt64} (h : Answered proto links d now links') {Q : Type}
    {cls : MessageClass} {dir : Q → Direction B P E N C} {threads : Nat → T}
    {reqIds : Nat → UInt64} {i j : Nat} {l : List (Q × cls.Proto)}
    (hsend : Links.sendAll proto threads i links' (outgoing proto cls dir reqIds j l) =
      some links'')
    (hstage : ∀ q, d.stage < (dir q).stage) : Answered proto links d now links'' := by
  have hsame : ∀ d' : Direction B P E N C, d'.stage ≤ d.stage → links'' d' = links' d' := by
    intro d' hle
    refine sendAll_eq hsend fun o ho heq => ?_
    obtain ⟨q, x, reqId, -, rfl⟩ := mem_outgoing ho
    have hdir : dir q = d' := heq
    rw [← hdir] at hle
    exact absurd (hstage q) (not_lt.mpr hle)
  obtain ⟨⟨r, hreceive⟩, hothers⟩ := h
  refine ⟨⟨r, by rw [hsame d le_rfl, hreceive]⟩, fun d' hne hle => ?_⟩
  rw [hsame d' hle, hothers d' hne hle]

/-! ## Sending is possible -/

/-- Calls of `send_message` that are not under way. -/
def Free (threads : Nat → T) (i : Nat) (links : Links B P E N C T) : Prop :=
  ∀ d, ∀ j, i ≤ j → threads j ∉ (links d).sending.between

omit [DecidableEq B] [DecidableEq P] [DecidableEq E] [DecidableEq N] [DecidableEq C]
  [DecidableEq T] in
theorem exists_free [Finite B] [Finite P] [Finite E] [Finite N] [Finite C] [Infinite T]
    (links : Links B P E N C T) :
    ∃ threads : Nat → T, Function.Injective threads ∧ Free threads 0 links := by
  have := Fintype.ofFinite B
  have := Fintype.ofFinite P
  have := Fintype.ofFinite E
  have := Fintype.ofFinite N
  have := Fintype.ofFinite C
  have hfinite : (⋃ d, {t | t ∈ (links d).sending.between}).Finite :=
    Set.finite_iUnion fun d => List.finite_toSet _
  let threads := hfinite.infinite_compl.natEmbedding
  refine ⟨fun i => threads i, fun i j heq => threads.injective (Subtype.ext heq), ?_⟩
  intro d j _ hmem
  exact (threads j).2 (Set.mem_iUnion.mpr ⟨d, hmem⟩)

theorem exists_sendAll (proto : Protobuf) {threads : Nat → T}
    (hinj : Function.Injective threads) {i : Nat} (hfree : Free threads i links)
    (out : List (Direction B P E N C × MessageTx)) :
    ∃ links', sendAll proto threads i links out = some links' ∧
      Free threads (i + out.length) links' := by
  induction out generalizing links i with
  | nil => exact ⟨links, rfl, hfree⟩
  | cons o rest ih =>
      obtain ⟨d, m⟩ := o
      have hpush : ∃ link, (links d).next (handler proto d) (.send (.push (threads i) m)) =
          some link ∧ link.sending.between = threads i :: (links d).sending.between := by
        simp [Link.next, Sending.next, hfree d i le_rfl]
      obtain ⟨link, hstep, hbetween⟩ := hpush
      have hfree' : Free threads (i + 1) (Function.update links d link) := by
        intro d' j hj
        rcases Decidable.em (d' = d) with hsame | hother
        · subst hsame
          rw [Function.update_self, hbetween, List.mem_cons, not_or]
          exact ⟨hinj.ne (by omega), hfree d' j (by omega)⟩
        · rw [Function.update_of_ne hother]
          exact hfree d' j (by omega)
      obtain ⟨links', hsend, hend⟩ := ih hfree'
      refine ⟨links', by simp only [sendAll, hstep, hsend], ?_⟩
      rwa [List.length_cons, Nat.add_comm rest.length, ← Nat.add_assoc]

omit [DecidableEq T] in
theorem Free.update {threads : Nat → T} {i : Nat} (h : Free threads i links) {link : Link T}
    (hsending : link.sending = (links d).sending) :
    Free threads i (Function.update links d link) := by
  intro d' j hj
  rcases Decidable.em (d' = d) with hsame | hother
  · subst hsame
    rw [Function.update_self, hsending]
    exact h d' j hj
  · rw [Function.update_of_ne hother]
    exact h d' j hj

end Links

namespace Deployed

variable {B P E N C T : Type} {k : Nat} {proto : Protobuf} {s s' : Deployed B P E N C T}
variable {ok : Prop} {id : N → Int32} {d : Direction B P E N C}
variable [DecidableEq B] [DecidableEq P] [DecidableEq E] [DecidableEq N] [DecidableEq C]
variable [DecidableEq T]

/-! ## Every step leaves less to be done -/

/-- A handler reads one message and sends at later stages only. -/
theorem answered_nextParty {time : UInt64} {threads : Nat → T} {reqIds : Nat → UInt64}
    {a : Action B P E N C} (hhandler : a.isHandler = true)
    (h : nextParty proto s time threads reqIds a = some s') :
    ∃ d, Links.Answered proto s.links d time s'.links := by
  cases a with
  | pumpOnPublish b p memory =>
      simp only [nextParty] at h
      split at h
      · simp at h
      · rename_i htake
        obtain ⟨links, hsend, rfl⟩ := Option.map_eq_some_iff.mp h
        exact ⟨_, (Links.answered_take htake).sendAll hsend fun _ => of_decide_eq_true rfl⟩
  | engineOnPrepare p e ackMemory publishMemory =>
      simp only [nextParty] at h
      split at h
      · simp at h
      · rename_i htake
        split at h
        · simp at h
        · rename_i hack
          obtain ⟨links, hsend, rfl⟩ := Option.map_eq_some_iff.mp h
          have hacked := (Links.answered_take htake).sendAll hack fun _ => of_decide_eq_true rfl
          exact ⟨_, hacked.sendAll hsend fun _ => of_decide_eq_true rfl⟩
  | pumpOnPrepareAck e p | consumerOnPublish n c now now' =>
      obtain ⟨⟨m, links⟩, htake, rfl⟩ := Option.map_eq_some_iff.mp h
      exact ⟨_, Links.answered_take htake⟩
  | engineOnUpdate n e =>
      simp only [nextParty] at h
      split at h
      · simp at h
      · rename_i htake
        obtain ⟨engine, -, rfl⟩ := Option.map_eq_some_iff.mp h
        exact ⟨_, Links.answered_take htake⟩
  | nuzzleOnPublish e n =>
      simp only [nextParty] at h
      split at h
      · simp at h
      · rename_i htake
        obtain ⟨links, hsend, rfl⟩ := Option.map_eq_some_iff.mp h
        exact ⟨_, (Links.answered_take htake).sendAll hsend fun _ => of_decide_eq_true rfl⟩
  | nuzzleOnUpdate c n memory =>
      simp only [nextParty] at h
      split at h
      · simp at h
      · rename_i htake
        split at h
        · simp at h
        · obtain ⟨links, hsend, rfl⟩ := Option.map_eq_some_iff.mp h
          exact ⟨_, (Links.answered_take htake).sendAll hsend fun _ => of_decide_eq_true rfl⟩
  | connectToPump | pumpConnectToEngine | nuzzleConnectToEngine | connectToNuzzle | publish
    | updateSubscribtion => simp [Action.isHandler] at hhandler

/-- What is to be done on the connections, by stage. -/
def load [Fintype B] [Fintype P] [Fintype E] [Fintype N] [Fintype C]
    (s : Deployed B P E N C T) : Fin 7 → Nat :=
  stageLoad Direction.stage fun d => (s.links d).work

/-- Every step spends at the stage of the connection it is about. -/
theorem spends_next [Fintype B] [Fintype P] [Fintype E] [Fintype N] [Fintype C]
    (hs : Links.Sound proto ok s.links) {a : DeployedAction B P E N C T} (hgoes : a.Goes id)
    (h : next proto s a = some s') : Spends load s s' := by
  suffices hone : ∃ d, (s'.links d).work < (s.links d).work ∧
      ∀ d', d' ≠ d → d'.stage ≤ d.stage → s'.links d' = s.links d' by
    obtain ⟨d, hless, hothers⟩ := hone
    exact spends_stageLoad (fun (s : Deployed B P E N C T) d => (s.links d).work) hless
      fun d' hne hle => congrArg Link.work (hothers d' hne hle)
  cases a with
  | link d a =>
      simp only [next] at h
      split at h
      · simp at h
      · rename_i hnone
        obtain ⟨link, hstep, rfl⟩ := Option.map_eq_some_iff.mp h
        refine ⟨d, ?_, fun d' hne _ => Function.update_of_ne hne _ _⟩
        have hpush : ∀ t m, a ≠ .send (.push t m) := by
          rintro t m rfl
          simp [Link.event] at hnone
        simp only [Function.update_self]
        exact (hs.reached d).work_next hpush hstep
  | ignored d now =>
      simp only [next] at h
      split at h
      · simp at h
      · rename_i hreceive
        split at h
        · simp at h
        · obtain rfl := Option.some.inj h
          refine ⟨d, ?_, fun d' hne _ => Function.update_of_ne hne _ _⟩
          simp only [Function.update_self]
          exact (hs.reached d).work_next (by simp) (Link.receive_eq_some hreceive).1
  | party a now threads reqIds =>
      obtain ⟨d, ⟨r, hreceive⟩, hothers⟩ := answered_nextParty hgoes.1 h
      exact ⟨d, (hs.reached d).work_next (by simp) (Link.receive_eq_some hreceive).1, hothers⟩

/-! ## Some step is possible until all is handled -/

/-- A completed message can be handled. -/
theorem exists_answer [Finite B] [Finite P] [Finite E] [Finite N] [Finite C] [Infinite T]
    (hs : Links.Sound proto ok s.links) (hfits : Links.Fits s.links)
    (hinv : State.Answerable id (abs proto s)) {now : UInt64} {r : MessageRx} {link : Link T}
    (hreceive : (s.links d).receive (Links.handler proto d) now = some (r, link)) :
    ∃ threads reqIds s', nextParty proto s now threads reqIds (d.answer id) = some s' := by
  have hpop := (hs.reached d).pop?_channel hreceive
  obtain ⟨-, m, hm, -⟩ := hs.received hfits hpop
  have htake : Links.take proto s.links d now = some (m, update s.links d link) := by
    simp only [Links.take, hreceive, hm, Option.map_some]
  obtain ⟨threads, hinj, hall⟩ := Links.exists_free s.links
  have hfree : Links.Free threads 0 (update s.links d link) :=
    hall.update (Link.receive_sending hreceive)
  have hsend := Links.exists_sendAll proto hinj hfree
  refine ⟨threads, fun _ => 0, ?_⟩
  cases d with
  | publish ends =>
      obtain ⟨b, p⟩ := ends
      obtain ⟨links, hsend, -⟩ := hsend _
      simp only [Direction.answer, nextParty, htake]
      exact ⟨_, Option.map_eq_some_iff.mpr ⟨links, hsend, rfl⟩⟩
  | prepare ends =>
      obtain ⟨p, e⟩ := ends
      obtain ⟨links, hack, hfree'⟩ := hsend _
      obtain ⟨links', hsend, -⟩ := Links.exists_sendAll proto hinj hfree' _
      simp only [Direction.answer, nextParty, htake]
      rw [hack]
      exact ⟨_, Option.map_eq_some_iff.mpr ⟨links', hsend, rfl⟩⟩
  | ack ends =>
      simp only [Direction.answer, nextParty, htake, Option.map_some]
      exact ⟨_, rfl⟩
  | update ends =>
      obtain ⟨n, e⟩ := ends
      obtain ⟨ch, hpop', -⟩ := Links.view_take Direction.oneKind_update hpop hm
      obtain ⟨engine, hupdate⟩ := Option.isSome_iff_exists.mp (hinv.sound.isSome_update hpop')
      simp only [Direction.answer, nextParty, htake]
      exact ⟨_, Option.map_eq_some_iff.mpr ⟨engine, hupdate, rfl⟩⟩
  | fanout ends =>
      obtain ⟨e, n⟩ := ends
      obtain ⟨links, hsend, -⟩ := hsend _
      simp only [Direction.answer, nextParty, htake]
      exact ⟨_, Option.map_eq_some_iff.mpr ⟨links, hsend, rfl⟩⟩
  | request ends =>
      obtain ⟨c, n⟩ := ends
      obtain ⟨ch, hpop', -⟩ := Links.view_take Direction.oneKind_request hpop hm
      have hsome : ((s.nuzzle n).onUpdateSubscriptionReceive (fun _ => Direction.heldBy id n) c
          (Nuzzle.MsgUpdateSubscriptionReqRx.get m)).isSome = true :=
        hinv.sound.booked.isSome_update (hinv.solvent (c, n)) _ hpop'
      obtain ⟨⟨nuzzle, out⟩, hupdate⟩ := Option.isSome_iff_exists.mp hsome
      obtain ⟨links, hsend, -⟩ := hsend _
      simp only [Direction.answer, nextParty, htake, hupdate]
      exact ⟨_, Option.map_eq_some_iff.mpr ⟨links, hsend, rfl⟩⟩
  | delivery ends =>
      simp only [Direction.answer, nextParty, htake, Option.map_some]
      exact ⟨_, rfl⟩

/-- As long as nothing has failed and a message is in flight, some step is possible. -/
theorem exists_next [Finite B] [Finite P] [Finite E] [Finite N] [Finite C] [Infinite T]
    (hs : Links.Sound proto ok s.links) (hok : ok) (hfits : Links.Fits s.links)
    (hinv : State.Answerable id (abs proto s)) (hbusy : ¬ State.Quiescent (abs proto s)) :
    ∃ (a : DeployedAction B P E N C T) (s' : Deployed B P E N C T),
      a.Goes id ∧ a.Succeeds ∧ next proto s a = some s' := by
  obtain ⟨d, hqueue⟩ : ∃ d, (s.links d).channel.queue ≠ [] := by
    by_contra hempty
    push Not at hempty
    exact hbusy (by simp [State.Quiescent, abs, Links.view, Channel.filterMap, hempty])
  obtain ⟨a, link, hsucceeds, hpush, hstep⟩ := (hs.reached d).exists_step hok hqueue
  cases hevent : Link.event (Links.handler proto d) (s.links d) a with
  | none =>
      refine ⟨.link d a, { s with links := update s.links d link }, trivial, hsucceeds, ?_⟩
      simp only [next, hevent, hstep, Option.map_some]
  | some event =>
      -- only a read that completes a message is something to the channel
      obtain ⟨now, rfl⟩ : ∃ now, a = .read now := by
        cases a with
        | read now => exact ⟨now, rfl⟩
        | readFails reason => simp [Link.event] at hevent
        | send a =>
            cases a with
            | push t m => exact absurd rfl (hpush t m)
            | post | trySend | written | reset | sendNext => simp [Link.event] at hevent
      obtain ⟨r, hreceive⟩ := Link.exists_receive hstep hevent
      obtain ⟨threads, reqIds, s', hparty⟩ := exists_answer hs hfits hinv hreceive
      exact ⟨.party (d.answer id) now threads reqIds, s', d.handles_answer id, trivial, hparty⟩

/-! ## Runs in which the clients are silent -/

/-- The state of a run that can still settle. -/
structure Settles (proto : Protobuf) (id : N → Int32) (k : Nat) (ok : Prop)
    (s : Deployed B P E N C T) : Prop where
  sound : Links.Sound proto ok s.links
  light : Links.AllLight k proto s.links
  answerable : State.Answerable id (abs proto s)

omit [DecidableEq B] [DecidableEq P] [DecidableEq E] [DecidableEq N] [DecidableEq C]
  [DecidableEq T] in
/-- A handler asks for nothing. -/
theorem within_of_goes {a : DeployedAction B P E N C T} (hgoes : a.Goes id) : a.Within k := by
  cases a with
  | link | ignored => trivial
  | party a now threads reqIds =>
      obtain ⟨hhandler, -⟩ := hgoes
      cases a with
      | publish | updateSubscribtion => simp [Action.isHandler] at hhandler
      | _ => trivial

theorem settles_next (hexact : proto.Exact) (hk : 300 + k ≤ maxHeaderLen)
    (hinv : Settles proto id k ok s) {a : DeployedAction B P E N C T} (hgoes : a.Goes id)
    (hok : ok → a.Succeeds) (h : next proto s a = some s') : Settles proto id k ok s' := by
  have hproto : ∀ cls m, Light k cls m → ((proto cls).serialize m).length ≤ maxHeaderLen :=
    Light.fits hexact hk
  have hlight := allLight_next hinv.light hinv.sound (hinv.light.fits hproto)
    (within_of_goes hgoes) h
  obtain ⟨hsound, hsim⟩ := next_abs hinv.sound h (hlight.fits hproto) hok
  refine ⟨hsound, hlight, ?_⟩
  rcases hsim.cases with ⟨-, hsame⟩ | ⟨b, hb, hone⟩
  · rw [hsame]
    exact hinv.answerable
  · cases a with
    | party a now threads reqIds =>
        obtain rfl := Option.some.inj hb
        exact State.answerable_next hinv.answerable hgoes hone
    | link | ignored => simp [event] at hb

section Runs

variable {groupSize : UInt16} {headerBuf headerBuf' : Direction B P E N C → Bytes}
variable {preHeader preHeader' : Direction B P E N C → PreHeader}
variable {trace : List (Deployed B P E N C T × DeployedAction B P E N C T)}

theorem settles_run (hexact : proto.Exact) (hk : 300 + k ≤ maxHeaderLen)
    (h : Runs proto groupSize headerBuf headerBuf' preHeader preHeader' trace s)
    (hwithin : ∀ x ∈ trace, x.2.Within k) (hok : ok → ∀ x ∈ trace, x.2.Succeeds)
    (horderly : State.Orderly id (projectTrace (abs proto) event trace))
    (hsolvent : ∀ link, Solvent ((abs proto s).requests link).sent) : Settles proto id k ok s := by
  have hproto : ∀ cls m, Light k cls m → ((proto cls).serialize m).length ≤ maxHeaderLen :=
    Light.fits hexact hk
  obtain ⟨-, hlight, -⟩ := allLight_run hproto h hwithin
  obtain ⟨hsound, hrun⟩ := abs_run h (hlight.fits hproto) hok
  exact ⟨hsound, hlight, (State.sound_start groupSize).run hrun horderly, hsolvent⟩

/-- Once the clients of an orderly run are silent, the handlers and the ends of the
connections do not go on for ever, whatever order they go on in and whatever fails.  If
nothing fails, they can bring the system to a state in which every message has been handled,
and in no order are they stuck before. -/
theorem settles [Fintype B] [Fintype P] [Fintype E] [Fintype N] [Fintype C] [Infinite T]
    (hexact : proto.Exact) (hk : 300 + k ≤ maxHeaderLen)
    (h : Runs proto groupSize headerBuf headerBuf' preHeader preHeader' trace s)
    (hwithin : ∀ x ∈ trace, x.2.Within k)
    (horderly : State.Orderly id (projectTrace (abs proto) event trace))
    (hsolvent : ∀ link, Solvent ((abs proto s).requests link).sent) :
    (∀ f : Nat → Deployed B P E N C T, f 0 = s →
      ¬ ∀ i, ∃ a, a.Goes id ∧ next proto (f i) a = some (f (i + 1))) ∧
    ((∀ x ∈ trace, x.2.Succeeds) →
      (∃ rest s', Run (Steps (next proto)) s rest s' ∧
        (∀ x ∈ rest, x.2.Goes id ∧ x.2.Succeeds) ∧ State.Quiescent (abs proto s')) ∧
      ∀ rest s', Run (Steps (next proto)) s rest s' →
        (∀ x ∈ rest, x.2.Goes id ∧ x.2.Succeeds) →
        (∀ a : DeployedAction B P E N C T, a.Goes id → a.Succeeds → next proto s' a = none) →
        State.Quiescent (abs proto s')) := by
  have hproto : ∀ cls m, Light k cls m → ((proto cls).serialize m).length ≤ maxHeaderLen :=
    Light.fits hexact hk
  refine ⟨fun f hzero hsteps => ?_, fun hsucceeds => ⟨?_, ?_⟩⟩
  · have hinv : ∀ i, Settles proto id k False (f i) := by
      intro i
      induction i with
      | zero => exact hzero ▸ settles_run hexact hk h hwithin False.elim horderly hsolvent
      | succ i ih =>
          obtain ⟨a, hgoes, hone⟩ := hsteps i
          exact settles_next hexact hk ih hgoes False.elim hone
    obtain ⟨_, ⟨i, rfl⟩, hlast⟩ :=
      (wellFounded_spends (load : Deployed B P E N C T → Fin 7 → Nat)).has_min (Set.range f)
        ⟨f 0, 0, rfl⟩
    obtain ⟨a, hgoes, hone⟩ := hsteps i
    exact hlast (f (i + 1)) ⟨i + 1, rfl⟩ (spends_next (hinv i).sound hgoes hone)
  · have hwf : WellFounded fun s' s : Deployed B P E N C T =>
        ∃ a, (Settles proto id k True s ∧ a.Goes id ∧ a.Succeeds) ∧ Steps (next proto) s a s' :=
      Subrelation.wf (fun ⟨_, ⟨hinv, hgoes, _⟩, hone⟩ => spends_next hinv.sound hgoes hone)
        (wellFounded_spends load)
    have hprogress : ∀ s : Deployed B P E N C T, Settles proto id k True s →
        ¬ State.Quiescent (abs proto s) →
          ∃ a s', (Settles proto id k True s ∧ a.Goes id ∧ a.Succeeds) ∧
            Steps (next proto) s a s' ∧ Settles proto id k True s' := by
      intro s hinv hbusy
      obtain ⟨a, s', hgoes, hsucceed, hone⟩ :=
        exists_next hinv.sound trivial (hinv.light.fits hproto) hinv.answerable hbusy
      exact ⟨a, s', ⟨hinv, hgoes, hsucceed⟩, hone,
        settles_next hexact hk hinv hgoes (fun _ => hsucceed) hone⟩
    obtain ⟨rest, s', hrun, hgoes, -, hquiet⟩ :=
      Run.exists_to_of_wellFounded
        (C := fun s (a : DeployedAction B P E N C T) =>
          Settles proto id k True s ∧ a.Goes id ∧ a.Succeeds) hwf hprogress s
        (settles_run hexact hk h hwithin (fun _ => hsucceeds) horderly hsolvent)
    exact ⟨rest, s', hrun, fun x hx => (hgoes x hx).2, hquiet⟩
  · intro rest s' hrun hgoes hstuck
    have hinv : Settles proto id k True s' := hrun.invariant
      (C := fun _ a => a.Goes id ∧ a.Succeeds) (I := Settles proto id k True) hgoes
      (settles_run hexact hk h hwithin (fun _ => hsucceeds) horderly hsolvent)
      fun _ _ _ hinv hC hstep => settles_next hexact hk hinv hC.1 (fun _ => hC.2) hstep
    by_contra hbusy
    obtain ⟨a, s'', ha, hsucceed, hone⟩ :=
      exists_next hinv.sound trivial (hinv.light.fits hproto) hinv.answerable hbusy
    simp [hstuck a ha hsucceed] at hone

/-- The clients of one server of each kind have spoken, and nothing has been written yet. -/
def clientsSpoke (b : B) (p : P) (e : E) (n : N) (c : C) (t : T) :
    List (DeployedAction B P E N C T) :=
  let acts : Action B P E N C → DeployedAction B P E N C T :=
    fun a => .party a 72 (fun _ => t) (fun _ => 0)
  [acts (.pumpConnectToEngine p e), acts (.nuzzleConnectToEngine n e),
    acts (.connectToPump b p), acts (.connectToNuzzle c n),
    acts (.updateSubscribtion c (.on 7 1)), acts (.publish b 5 (.on 7 [1]))]

theorem settles_clientsSpoke :
    ∃ (trace : List (Deployed Unit Unit Unit Unit Unit Nat ×
        DeployedAction Unit Unit Unit Unit Unit Nat))
      (s : Deployed Unit Unit Unit Unit Unit Nat),
      Run (Steps (next protobuf))
          (start 1 (fun _ => []) (fun _ => []) (fun _ => default) fun _ => default) trace s ∧
        ¬ State.Quiescent (abs protobuf s) ∧
        ∃ rest s', Run (Steps (next protobuf)) s rest s' ∧
          (∀ x ∈ rest, x.2.Goes (fun _ => 0) ∧ x.2.Succeeds) ∧
          State.Quiescent (abs protobuf s') := by
  obtain ⟨trace, s, hrun, hlabels, hid, hfirst, hsolvent, hbusy⟩ :=
    exists_labelled_run_of_execute (clientsSpoke () () () () () 0) (next protobuf)
      (start 1 (fun _ => []) (fun _ => []) (fun _ => default) fun _ => default :
        Deployed Unit Unit Unit Unit Unit Nat)
      (fun trace s => State.FixedClientId (fun _ => 0) (projectTrace (abs protobuf) event trace) ∧
        (∀ x ∈ projectTrace (abs protobuf) event trace, ∀ n ∈ x.2.connecting, ∀ c,
          (x.1.requests (c, n)).received = []) ∧
        (∀ link, Solvent ((abs protobuf s).requests link).sent) ∧
        ((abs protobuf s).publishes ((), ())).queue ≠ [])
      (by decide +kernel)
  have hlabel : ∀ x ∈ trace, x.2.Within 1 ∧ x.2.Succeeds := by
    intro x hx
    have hmem : x.2 ∈ clientsSpoke () () () () () 0 := hlabels ▸ List.mem_map_of_mem hx
    revert hmem
    generalize x.2 = a
    simp only [clientsSpoke, List.mem_cons, List.not_mem_nil, or_false]
    rintro (rfl | rfl | rfl | rfl | rfl | rfl)
    all_goals exact ⟨by decide, trivial⟩
  have hwithin : ∀ x ∈ trace, x.2.Within 1 := fun x hx => (hlabel x hx).1
  have hfits := (headers_fit protobuf_exact (by decide) hrun hwithin).1.2
  have horderly := State.orderly_of_connectedFirst (refines_state hrun hfits).1 hid hfirst
  refine ⟨trace, s, hrun, fun hquiet => hbusy (hquiet.1 ((), ())), ?_⟩
  exact ((settles protobuf_exact (by decide) hrun hwithin horderly hsolvent).2
    fun x hx => (hlabel x hx).2).1

end Runs

end Deployed

end Firehose.Cluster
