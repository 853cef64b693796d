import Firehose.Cluster.State
import Firehose.Network.Link
import Firehose.Network.MessageClasses
import Mathlib.Data.Fintype.Prod
import Mathlib.Data.Fintype.Sum
import Mathlib.Tactic.DeriveFintype

set_option autoImplicit false

/-!
# The connections of the system

Two parties that are connected have a connection in each direction that messages take, and
messages of one class travel in each direction.  Sending hands messages over to
`message_sender`; a handler is called by the read that completes its message.
-/

namespace Firehose.Cluster

open Firehose.Api Firehose.Foundation Firehose.Network
open Function (update)
open Channel (addressedTo)

/-- One direction of a connection, by its two ends. -/
inductive Direction (B P E N C : Type)
  | publish (ends : B × P)
  | prepare (ends : P × E)
  | ack (ends : E × P)
  | update (ends : N × E)
  | fanout (ends : E × N)
  | request (ends : C × N)
  | delivery (ends : N × C)
  deriving DecidableEq, Fintype

namespace Direction

variable {B P E N C : Type}

/-- The class of the messages that are sent. -/
def cls : Direction B P E N C → MessageClass
  | publish _ => .publishReq
  | prepare _ => .prepareReq
  | ack _ => .prepareRsp
  | update _ => .updateSubscriptionReq
  | fanout _ => .publishReq
  | request _ => .updateSubscriptionReq
  | delivery _ => .publishReq

/-- The classes of the connection at the receiving end. -/
def taken : Direction B P E N C → List MessageClass
  | publish _ => Pump.PublisherConnection.taken
  | prepare _ => Engine.PumpConnection.taken
  | ack _ => Pump.EngineConnection.taken
  | update _ => Engine.NuzzleConnection.taken
  | fanout _ => Nuzzle.EngineConnection.taken
  | request _ => Nuzzle.ConsumerConnection.taken
  | delivery _ => Consumer.NuzzleConnection.taken

theorem forall_iff {p : Direction B P E N C → Prop} :
    (∀ d, p d) ↔ (∀ ends, p (publish ends)) ∧ (∀ ends, p (prepare ends)) ∧
      (∀ ends, p (ack ends)) ∧ (∀ ends, p (update ends)) ∧ (∀ ends, p (fanout ends)) ∧
      (∀ ends, p (request ends)) ∧ ∀ ends, p (delivery ends) := by
  constructor
  · intro h
    exact ⟨fun _ => h _, fun _ => h _, fun _ => h _, fun _ => h _, fun _ => h _, fun _ => h _,
      fun _ => h _⟩
  · rintro ⟨hpublish, hprepare, hack, hupdate, hfanout, hrequest, hdelivery⟩ d
    cases d with
    | publish ends => exact hpublish ends
    | prepare ends => exact hprepare ends
    | ack ends => exact hack ends
    | update ends => exact hupdate ends
    | fanout ends => exact hfanout ends
    | request ends => exact hrequest ends
    | delivery ends => exact hdelivery ends

instance [Fintype B] [Fintype P] [Fintype E] [Fintype N] [Fintype C]
    (p : Direction B P E N C → Prop) [DecidablePred p] : Decidable (∀ d, p d) :=
  decidable_of_iff _ forall_iff.symm

/-- Each end takes what the other end sends. -/
theorem cls_mem_taken (d : Direction B P E N C) : d.cls ∈ d.taken := by
  cases d <;> exact of_decide_eq_true rfl

/-- The directions of one kind, by their ends. -/
structure OneKind {A Q : Type} (cls : MessageClass) (taken : List MessageClass)
    (dir : A × Q → Direction B P E N C) : Prop where
  injective : Function.Injective dir
  cls_eq : ∀ ends, (dir ends).cls = cls
  mem_taken : cls ∈ taken

theorem oneKind_publish :
    OneKind .publishReq Pump.PublisherConnection.taken (publish : B × P → Direction B P E N C) :=
  ⟨fun _ _ => publish.inj, fun _ => rfl, by decide⟩

theorem oneKind_prepare :
    OneKind .prepareReq Engine.PumpConnection.taken (prepare : P × E → Direction B P E N C) :=
  ⟨fun _ _ => prepare.inj, fun _ => rfl, by decide⟩

theorem oneKind_ack :
    OneKind .prepareRsp Pump.EngineConnection.taken (ack : E × P → Direction B P E N C) :=
  ⟨fun _ _ => ack.inj, fun _ => rfl, by decide⟩

theorem oneKind_update :
    OneKind .updateSubscriptionReq Engine.NuzzleConnection.taken
      (update : N × E → Direction B P E N C) :=
  ⟨fun _ _ => update.inj, fun _ => rfl, by decide⟩

theorem oneKind_fanout :
    OneKind .publishReq Nuzzle.EngineConnection.taken (fanout : E × N → Direction B P E N C) :=
  ⟨fun _ _ => fanout.inj, fun _ => rfl, by decide⟩

theorem oneKind_request :
    OneKind .updateSubscriptionReq Nuzzle.ConsumerConnection.taken
      (request : C × N → Direction B P E N C) :=
  ⟨fun _ _ => request.inj, fun _ => rfl, by decide⟩

theorem oneKind_delivery :
    OneKind .publishReq Consumer.NuzzleConnection.taken
      (delivery : N × C → Direction B P E N C) :=
  ⟨fun _ _ => delivery.inj, fun _ => rfl, by decide⟩

end Direction

/-- The connections, one for each direction. -/
abbrev Links (B P E N C T : Type) := Direction B P E N C → Link T

namespace Links

variable {B P E N C T : Type}

/-- The connection at the receiving end of a direction. -/
def handler (proto : Protobuf) (d : Direction B P E N C) : MessageHandler :=
  messageHandler proto d.taken

/-- Messages of a class as `send_message` gets them, each with the identifier that its object
happens to have. -/
def outgoing {Q : Type} (proto : Protobuf) (cls : MessageClass) (dir : Q → Direction B P E N C)
    (reqIds : Nat → UInt64) : Nat → List (Q × cls.Proto) → List (Direction B P E N C × MessageTx)
  | _, [] => []
  | i, (q, m) :: rest =>
      (dir q, cls.tx proto (reqIds i) m) :: outgoing proto cls dir reqIds (i + 1) rest

section Send

variable [DecidableEq B] [DecidableEq P] [DecidableEq E] [DecidableEq N] [DecidableEq C]
variable [DecidableEq T]

/-- `send_message` for one message after the other; each call pushes, and posts later. -/
def sendAll (proto : Protobuf) (threads : Nat → T) :
    Nat → Links B P E N C T → List (Direction B P E N C × MessageTx) → Option (Links B P E N C T)
  | _, links, [] => some links
  | i, links, (d, m) :: rest =>
      match (links d).next (handler proto d) (.send (.push (threads i) m)) with
      | none => none
      | some link => sendAll proto threads (i + 1) (update links d link) rest

/-- A message is completed and is of the class that the direction's handler is for. -/
def take (proto : Protobuf) (links : Links B P E N C T) (d : Direction B P E N C)
    (now : UInt64) : Option (d.cls.Proto × Links B P E N C T) :=
  match (links d).receive (handler proto d) now with
  | none => none
  | some (r, link) =>
      (received proto d.taken d.cls r.contents).map fun m => (m, update links d link)

end Send

/-! ## Sound connections -/

/-- A message of the direction's class. -/
def Typed (proto : Protobuf) (d : Direction B P E N C) (m : MessageTx) : Prop :=
  ∃ reqId x, m = d.cls.tx proto reqId x

/-- What has been sent fits into the header buffers. -/
def Fits (links : Links B P E N C T) : Prop :=
  ∀ d, ∀ m ∈ (links d).sending.pushed, m.header.length ≤ maxHeaderLen

instance [Fintype B] [Fintype P] [Fintype E] [Fintype N] [Fintype C]
    (links : Links B P E N C T) : Decidable (Fits links) :=
  inferInstanceAs
    (Decidable (∀ d, ∀ m ∈ (links d).sending.pushed, m.header.length ≤ maxHeaderLen))

/-- What has been sent stays sent. -/
def Grows (links links' : Links B P E N C T) : Prop :=
  ∀ d, (links d).sending.pushed <+: (links' d).sending.pushed

theorem Grows.refl (links : Links B P E N C T) : Grows links links := fun _ => List.prefix_rfl

theorem Grows.trans {links links' links'' : Links B P E N C T} (h : Grows links links')
    (h' : Grows links' links'') : Grows links links'' := fun d => (h d).trans (h' d)

theorem Fits.of_grows {links links' : Links B P E N C T} (hfits : Fits links')
    (h : Grows links links') : Fits links := fun d m hm => hfits d m ((h d).subset hm)

theorem Typed.accepted {proto : Protobuf} {d : Direction B P E N C} {m : MessageTx}
    (h : Typed proto d m) (hfits : m.header.length ≤ maxHeaderLen) :
    m.WellFormed ∧ (handler proto d).Accepts m := by
  obtain ⟨reqId, x, rfl⟩ := h
  exact ⟨wellFormed_tx hfits, accepts_tx d.cls_mem_taken hfits⟩

section Sound

variable [DecidableEq T]

/-- Every connection is in a state it can reach, with nothing but messages of its class; and
nothing has failed if `ok` holds. -/
structure Sound (proto : Protobuf) (ok : Prop) (links : Links B P E N C T) : Prop where
  reached : ∀ d, (links d).Reached (handler proto d) ok
  typed : ∀ d, ∀ m ∈ (links d).sending.pushed, Typed proto d m

variable [DecidableEq B] [DecidableEq P] [DecidableEq E] [DecidableEq N] [DecidableEq C]
variable {proto : Protobuf} {ok : Prop} {links links' : Links B P E N C T}
variable {d : Direction B P E N C} {link : Link T}

theorem Sound.update (hs : Sound proto ok links) (hreached : link.Reached (handler proto d) ok)
    (htyped : ∀ m ∈ link.sending.pushed, Typed proto d m) :
    Sound proto ok (update links d link) where
  reached := by
    intro d'
    rcases Decidable.em (d' = d) with hsame | hother
    · subst hsame
      rw [Function.update_self]
      exact hreached
    · rw [Function.update_of_ne hother]
      exact hs.reached d'
  typed := by
    intro d'
    rcases Decidable.em (d' = d) with hsame | hother
    · subst hsame
      rw [Function.update_self]
      exact htyped
    · rw [Function.update_of_ne hother]
      exact hs.typed d'

/-! ## Sending -/

omit [DecidableEq T] in
theorem grows_update (h : (links d).sending.pushed <+: link.sending.pushed) :
    Grows links (Function.update links d link) := by
  intro d'
  rcases Decidable.em (d' = d) with hsame | hother
  · subst hsame
    rwa [Function.update_self]
  · rw [Function.update_of_ne hother]

/-- What has been sent stays sent, and every message handed over has been sent. -/
theorem grows_sendAll {threads : Nat → T} {i : Nat}
    {out : List (Direction B P E N C × MessageTx)}
    (h : sendAll proto threads i links out = some links') :
    Grows links links' ∧ ∀ o ∈ out, o.2 ∈ (links' o.1).sending.pushed := by
  induction out generalizing links i with
  | nil =>
      obtain rfl := Option.some.inj h
      exact ⟨Grows.refl _, by simp⟩
  | cons o rest ih =>
      obtain ⟨d, m⟩ := o
      simp only [sendAll] at h
      split at h
      · simp at h
      · rename_i link hstep
        obtain ⟨hgrows, hmem⟩ := ih h
        have hpushed := Link.pushed_push_next hstep
        have hone : Grows links (Function.update links d link) :=
          grows_update (by rw [hpushed]; exact List.prefix_append _ _)
        refine ⟨hone.trans hgrows, fun o ho => ?_⟩
        rcases List.mem_cons.mp ho with hfirst | hrest
        · subst hfirst
          have hd := hgrows d
          rw [Function.update_self, hpushed] at hd
          exact hd.subset (List.mem_append_right _ (List.mem_singleton.mpr rfl))
        · exact hmem o hrest

/-- Nothing else has been sent. -/
theorem mem_pushed_sendAll {threads : Nat → T} {i : Nat}
    {out : List (Direction B P E N C × MessageTx)}
    (h : sendAll proto threads i links out = some links') {d : Direction B P E N C}
    {m : MessageTx} (hm : m ∈ (links' d).sending.pushed) :
    m ∈ (links d).sending.pushed ∨ (d, m) ∈ out := by
  induction out generalizing links i with
  | nil =>
      obtain rfl := Option.some.inj h
      exact Or.inl hm
  | cons o rest ih =>
      obtain ⟨d', m'⟩ := o
      simp only [sendAll] at h
      split at h
      · simp at h
      · rename_i link hstep
        rcases ih h with hold | hrest
        · rcases Decidable.em (d = d') with hsame | hother
          · subst hsame
            rw [Function.update_self, Link.pushed_push_next hstep] at hold
            rcases List.mem_append.mp hold with hbefore | hone
            · exact Or.inl hbefore
            · rw [List.mem_singleton.mp hone]
              exact Or.inr List.mem_cons_self
          · rw [Function.update_of_ne hother] at hold
            exact Or.inl hold
        · exact Or.inr (List.mem_cons_of_mem _ hrest)

theorem Fits.of_sendAll {threads : Nat → T} {i : Nat}
    {out : List (Direction B P E N C × MessageTx)} (hfits : Fits links')
    (h : sendAll proto threads i links out = some links') :
    Fits links ∧ ∀ o ∈ out, o.2.header.length ≤ maxHeaderLen := by
  obtain ⟨hgrows, hmem⟩ := grows_sendAll h
  exact ⟨hfits.of_grows hgrows, fun o ho => hfits o.1 o.2 (hmem o ho)⟩

/-- Messages have been pushed on the channels of their directions. -/
def Pushed (links : Links B P E N C T) (out : List (Direction B P E N C × MessageTx))
    (links' : Links B P E N C T) : Prop :=
  ∀ d, (links' d).channel =
    (links d).channel.push ((addressedTo d out).map MessageTx.contents)

/-- Sending is pushing on the channels. -/
theorem Sound.sendAll (hs : Sound proto ok links) {threads : Nat → T} {i : Nat}
    {out : List (Direction B P E N C × MessageTx)}
    (h : sendAll proto threads i links out = some links') (hfits : Fits links')
    (htyped : ∀ o ∈ out, Typed proto o.1 o.2) :
    Sound proto ok links' ∧ Pushed links out links' := by
  induction out generalizing links i with
  | nil =>
      obtain rfl := Option.some.inj h
      exact ⟨hs, fun d => by simp [addressedTo, Channel.push]⟩
  | cons o rest ih =>
      obtain ⟨d, m⟩ := o
      have hm := htyped (d, m) (by simp)
      have haccepted := hm.accepted ((hfits.of_sendAll h).2 (d, m) (by simp))
      simp only [Links.sendAll] at h
      split at h
      · simp at h
      · rename_i link hstep
        have hlink : link.Reached (handler proto d) ok :=
          (hs.reached d).next hstep haccepted fun _ => trivial
        have hpushed := Link.pushed_push_next hstep
        have hs₁ := hs.update hlink (by
          intro m' hm'
          rcases List.mem_append.mp (hpushed ▸ hm') with hold | hnew
          · exact hs.typed d m' hold
          · rw [List.mem_singleton.mp hnew]
            exact hm)
        obtain ⟨hs', hchannel⟩ := ih hs₁ h fun o ho => htyped o (List.mem_cons_of_mem _ ho)
        refine ⟨hs', fun d' => ?_⟩
        rw [hchannel d']
        rcases Decidable.em (d' = d) with hsame | hother
        · subst hsame
          rw [Function.update_self, (hs.reached d').channel_push hstep haccepted]
          simp [addressedTo, Channel.push]
        · rw [Function.update_of_ne hother]
          simp [addressedTo, Ne.symm hother]

/-! ## Receiving -/

theorem pushed_take {now : UInt64} {m : d.cls.Proto}
    (h : take proto links d now = some (m, links')) (d' : Direction B P E N C) :
    (links' d').sending.pushed = (links d').sending.pushed := by
  simp only [Links.take] at h
  split at h
  · simp at h
  · rename_i r link hreceive
    obtain ⟨m', -, heq⟩ := Option.map_eq_some_iff.mp h
    obtain ⟨rfl, rfl⟩ := Prod.mk.inj heq
    rcases Decidable.em (d' = d) with hsame | hother
    · subst hsame
      rw [Function.update_self, (Link.receive_eq_some hreceive).2.2.2]
    · rw [Function.update_of_ne hother]

theorem grows_take {now : UInt64} {m : d.cls.Proto}
    (h : take proto links d now = some (m, links')) : Grows links links' := fun d' => by
  rw [pushed_take h d']

/-- A handler gets the message at the front of the channel. -/
theorem Sound.take (hs : Sound proto ok links) {now : UInt64} {m : d.cls.Proto}
    (h : take proto links d now = some (m, links')) :
    ∃ x link, links' = Function.update links d link ∧ Sound proto ok links' ∧
      (links d).channel.pop? = some (x, link.channel) ∧
        received proto d.taken d.cls x = some m := by
  simp only [Links.take] at h
  split at h
  · simp at h
  · rename_i r link hreceive
    obtain ⟨m', hm, heq⟩ := Option.map_eq_some_iff.mp h
    obtain ⟨rfl, rfl⟩ := Prod.mk.inj heq
    obtain ⟨hstep, -, -, hpushed⟩ := Link.receive_eq_some hreceive
    refine ⟨r.contents, link, rfl, hs.update ?_ ?_, (hs.reached d).pop?_channel hreceive, hm⟩
    · exact (hs.reached d).next hstep trivial fun _ => trivial
    · rw [hpushed]
      exact hs.typed d

omit [DecidableEq B] [DecidableEq P] [DecidableEq E] [DecidableEq N] [DecidableEq C] in
/-- A completed message is one that was sent, and of the class that the handler is for. -/
theorem Sound.received (hs : Sound proto ok links) (hfits : Fits links)
    {x : UInt64 × UInt64 × Bytes × Bytes} {ch : Channel (UInt64 × UInt64 × Bytes × Bytes)}
    (hpop : (links d).channel.pop? = some (x, ch)) :
    ∃ reqId m, received proto d.taken d.cls x = some m ∧
      d.cls.tx proto reqId m ∈ (links d).sending.pushed := by
  have hsent : x ∈ (links d).channel.sent := by
    rw [Channel.sent, (Channel.pop?_eq_some hpop).1]
    simp
  rw [(hs.reached d).sent_channel] at hsent
  obtain ⟨m, hm, hcontents⟩ := List.mem_map.mp hsent
  obtain ⟨reqId, y, rfl⟩ := hs.typed d m hm
  exact ⟨reqId, y, by rw [← hcontents]; exact received_tx d.cls_mem_taken (hfits d _ hm), hm⟩

end Sound

/-! ## The channels of one kind -/

section View

variable {A Q : Type} {proto : Protobuf} {cls : MessageClass} {taken : List MessageClass}
variable {links links' : Links B P E N C T}

/-- The connections of one kind as channels of wire messages. -/
def view (proto : Protobuf) (cls : MessageClass) (taken : List MessageClass)
    (dir : A × Q → Direction B P E N C) (links : Links B P E N C T) :
    A × Q → Channel cls.Proto :=
  fun ends => (links (dir ends)).channel.filterMap (received proto taken cls)

variable {dir : A × Q → Direction B P E N C}

/-- The channels that the connections stand for are all that matters. -/
theorem view_congr (h : ∀ ends, (links' (dir ends)).channel = (links (dir ends)).channel) :
    view proto cls taken dir links' = view proto cls taken dir links := by
  funext ends
  unfold view
  rw [h ends]

theorem typed_outgoing {dir : Q → Direction B P E N C} (hcls : ∀ q, (dir q).cls = cls)
    {reqIds : Nat → UInt64} {i : Nat} {l : List (Q × cls.Proto)} :
    ∀ o ∈ outgoing proto cls dir reqIds i l, Typed proto o.1 o.2 := by
  induction l generalizing i with
  | nil => simp [outgoing]
  | cons x rest ih =>
      obtain ⟨q, m⟩ := x
      intro o ho
      rcases List.mem_cons.mp ho with hfirst | hrest
      · subst hfirst
        have hq := hcls q
        subst hq
        exact ⟨_, m, rfl⟩
      · exact ih o hrest

variable [DecidableEq B] [DecidableEq P] [DecidableEq E] [DecidableEq N] [DecidableEq C]

theorem addressedTo_outgoing_ne {dir : Q → Direction B P E N C} {d : Direction B P E N C}
    (hne : ∀ q, dir q ≠ d) {reqIds : Nat → UInt64} {i : Nat} {l : List (Q × cls.Proto)} :
    addressedTo d (outgoing proto cls dir reqIds i l) = [] := by
  induction l generalizing i with
  | nil => rfl
  | cons x rest ih =>
      obtain ⟨q, m⟩ := x
      have hrest := ih (i := i + 1)
      unfold addressedTo at hrest ⊢
      simp only [outgoing, hne q, decide_false, Bool.false_eq_true, not_false_iff,
        List.filter_cons_of_neg, hrest]

/-- Sending leaves the channels of the other kinds alone. -/
theorem view_pushed_ne {Q' : Type} {cls' : MessageClass} {dir' : Q' → Direction B P E N C}
    {reqIds : Nat → UInt64} {i : Nat} {l : List (Q' × cls'.Proto)}
    (hpushed : Pushed links (outgoing proto cls' dir' reqIds i l) links')
    (hne : ∀ ends q, dir' q ≠ dir ends) :
    view proto cls taken dir links' = view proto cls taken dir links := by
  apply view_congr
  intro ends
  rw [hpushed, addressedTo_outgoing_ne (hne ends)]
  simp [Channel.push]

/-- A connection of another kind does not matter. -/
theorem view_update_ne {d : Direction B P E N C} {link : Link T} (hne : ∀ ends, dir ends ≠ d) :
    view proto cls taken dir (update links d link) = view proto cls taken dir links := by
  apply view_congr
  intro ends
  rw [Function.update_of_ne (hne ends)]

variable [DecidableEq Q]

/-- What arrives of the messages for one direction. -/
theorem received_outgoing (hkind : Direction.OneKind cls taken dir)
    {reqIds : Nat → UInt64} {i : Nat} {a : A} {l : List (Q × cls.Proto)}
    (hfits : ∀ o ∈ outgoing proto cls (fun q => dir (a, q)) reqIds i l,
      o.2.header.length ≤ maxHeaderLen) (q : Q) :
    ((addressedTo (dir (a, q)) (outgoing proto cls (fun q => dir (a, q)) reqIds i l)).map
      MessageTx.contents).filterMap (received proto taken cls) = addressedTo q l := by
  induction l generalizing i with
  | nil => rfl
  | cons x rest ih =>
      obtain ⟨q', m⟩ := x
      have hrest := ih fun o ho => hfits o (List.mem_cons_of_mem _ ho)
      have hone : received proto taken cls (cls.tx proto (reqIds i) m).contents = some m :=
        received_tx hkind.mem_taken (hfits _ (List.mem_cons_self ..))
      unfold addressedTo at hrest ⊢
      rcases Decidable.em (q' = q) with hsame | hother
      · subst hsame
        simp only [outgoing, decide_true, List.filter_cons_of_pos, List.map_cons,
          List.filterMap_cons_some hone, hrest]
      · have hne : dir (a, q') ≠ dir (a, q) := fun heq =>
          hother (Prod.mk.inj (hkind.injective heq)).2
        simp only [outgoing, hne, hother, decide_false, Bool.false_eq_true, not_false_iff,
          List.filter_cons_of_neg, hrest]

variable [DecidableEq A]

/-- Sending posts on the channels of its kind. -/
theorem Sound.post [DecidableEq T] {ok : Prop} (hs : Sound proto ok links)
    (hkind : Direction.OneKind cls taken dir) {threads : Nat → T} {reqIds : Nat → UInt64}
    {i j : Nat} {a : A} {l : List (Q × cls.Proto)}
    (h : Links.sendAll proto threads i links
      (outgoing proto cls (fun q => dir (a, q)) reqIds j l) = some links') (hfits : Fits links') :
    Sound proto ok links' ∧
      Pushed links (outgoing proto cls (fun q => dir (a, q)) reqIds j l) links' ∧
      view proto cls taken dir links' = Channel.post (view proto cls taken dir links) a l := by
  obtain ⟨hs', hpushed⟩ := hs.sendAll h hfits (typed_outgoing fun q => hkind.cls_eq (a, q))
  have hout := (hfits.of_sendAll h).2
  refine ⟨hs', hpushed, ?_⟩
  funext ends
  obtain ⟨a', q⟩ := ends
  unfold view Channel.post
  rw [hpushed, Channel.filterMap_push]
  rcases Decidable.em (a' = a) with hsame | hother
  · subst hsame
    rw [if_pos rfl, received_outgoing hkind hout]
  · have hne : ∀ q', dir (a, q') ≠ dir (a', q) := fun q' heq =>
      hother (Prod.mk.inj (hkind.injective heq)).1.symm
    rw [if_neg hother, addressedTo_outgoing_ne hne]
    simp [Channel.push]

/-- Taking a message takes it off the channel of its direction. -/
theorem view_take (hkind : Direction.OneKind cls taken dir) {ends : A × Q} {link : Link T}
    {x : UInt64 × UInt64 × Bytes × Bytes} {m : cls.Proto}
    (hpop : (links (dir ends)).channel.pop? = some (x, link.channel))
    (hm : received proto taken cls x = some m) :
    ∃ ch, (view proto cls taken dir links ends).pop? = some (m, ch) ∧
      view proto cls taken dir (update links (dir ends) link) =
        update (view proto cls taken dir links) ends ch := by
  refine ⟨_, Channel.pop?_filterMap hpop hm, ?_⟩
  funext ends'
  unfold view
  rcases Decidable.em (ends' = ends) with hsame | hother
  · subst hsame
    rw [Function.update_self, Function.update_self]
  · rw [Function.update_of_ne hother, Function.update_of_ne (hkind.injective.ne hother)]

end View

end Links

end Firehose.Cluster
