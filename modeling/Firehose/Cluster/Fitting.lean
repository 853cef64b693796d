import Firehose.Api.SerializedSize
import Firehose.Cluster.Deployed

set_option autoImplicit false

/-!
# The header buffers hold what is serialised into them

`serialize_tx_header` does not know how long the buffer is that it writes into.  The clients
choose the payloads and the baggage; the servers copy payloads and add nothing else that has
no bound.
-/

namespace Firehose.Cluster

open Firehose.Api Firehose.Foundation Firehose.Network Firehose.Node
open Function (update)

/-! ## Messages of a bounded size -/

/-- A message as an encoder builds it, with at most `k` bytes in its strings.  No server sends
the responses to a publish and the accepts. -/
def Light (k : Nat) : (cls : MessageClass) → cls.Proto → Prop
  | .publishReq, m => ∃ request : RequestPublish, m = request.set ∧
      request.header.baggage.length + request.message.length ≤ k
  | .prepareReq, m => ∃ request : RequestPrepare, m = request.set ∧
      request.header.baggage.length + request.message.length ≤ k
  | .prepareRsp, m => ∃ response : ResponsePrepare, m = response.set ∧
      response.header.message.length + response.header.baggage.length ≤ k
  | .updateSubscriptionReq, m => ∃ request : RequestUpdateSubscription,
      (m = request.set ∨ m = request.setWithTelemetry) ∧ request.header.baggage.length ≤ k
  | .publishRsp, _ => False
  | .acceptReq, _ => False

theorem Light.byteSize_le {k : Nat} (hk : k < 2 ^ 60) {cls : MessageClass} {m : cls.Proto}
    (h : Light k cls m) : cls.byteSize m ≤ 300 + k := by
  cases cls with
  | publishReq =>
      obtain ⟨request, rfl, hlen⟩ := h
      exact Nat.le_trans (request.byteSize_set_le (by omega) (by omega)) (by omega)
  | prepareReq =>
      obtain ⟨request, rfl, hlen⟩ := h
      exact Nat.le_trans (request.byteSize_set_le (by omega) (by omega)) (by omega)
  | prepareRsp =>
      obtain ⟨response, rfl, hlen⟩ := h
      exact Nat.le_trans (response.byteSize_set_le (by omega) (by omega)) (by omega)
  | updateSubscriptionReq =>
      obtain ⟨request, rfl | rfl, hlen⟩ := h
      · exact Nat.le_trans (request.byteSize_set_le (by omega)) (by omega)
      · exact Nat.le_trans (request.byteSize_setWithTelemetry_le (by omega)) (by omega)
  | publishRsp | acceptReq => exact h.elim

/-- Such a message fits if its strings leave room for its numbers. -/
theorem Light.fits {proto : Protobuf} (hexact : proto.Exact) {k : Nat}
    (hk : 300 + k ≤ maxHeaderLen) (cls : MessageClass) (m : cls.Proto) (h : Light k cls m) :
    ((proto cls).serialize m).length ≤ maxHeaderLen := by
  have hmax : maxHeaderLen < 2 ^ 60 := by decide
  have hsize : cls.byteSize m ≤ maxHeaderLen := Nat.le_trans (h.byteSize_le (by omega)) hk
  rw [hexact cls m hsize]
  exact hsize

/-- The clients ask for messages of a bounded size. -/
def Action.Within {B P E N C : Type} (k : Nat) : Action B P E N C → Prop
  | .publish _ _ request => request.header.baggage.length + request.message.length ≤ k
  | .updateSubscribtion _ request => request.header.baggage.length ≤ k
  | _ => True

def DeployedAction.Within {B P E N C T : Type} (k : Nat) : DeployedAction B P E N C T → Prop
  | .party a _ _ _ => a.Within k
  | _ => True

instance {B P E N C : Type} (k : Nat) (a : Action B P E N C) : Decidable (a.Within k) :=
  match a with
  | .publish _ _ request =>
      inferInstanceAs (Decidable (request.header.baggage.length + request.message.length ≤ k))
  | .updateSubscribtion _ request =>
      inferInstanceAs (Decidable (request.header.baggage.length ≤ k))
  | .connectToPump .. | .pumpConnectToEngine .. | .nuzzleConnectToEngine ..
  | .connectToNuzzle .. | .pumpOnPublish .. | .pumpOnPrepareAck .. | .engineOnPrepare ..
  | .engineOnUpdate .. | .nuzzleOnPublish .. | .nuzzleOnUpdate .. | .consumerOnPublish .. =>
      isTrue trivial

instance {B P E N C T : Type} (k : Nat) (a : DeployedAction B P E N C T) :
    Decidable (a.Within k) :=
  match a with
  | .party a _ _ _ => inferInstanceAs (Decidable (a.Within k))
  | .link .. | .ignored .. => isTrue trivial

/-! ## What the handlers send -/

section Handlers

variable {B P E N C : Type} {k : Nat}

theorem light_publish {publisher publisher' : Publisher P} {now : UInt64}
    {request sent : RequestPublish} {p : P}
    (h : publisher.publish now request = some (publisher', p, sent))
    (hwithin : request.header.baggage.length + request.message.length ≤ k) :
    Light k .publishReq (Publisher.MsgPublishReqTx.set sent) := by
  unfold Publisher.publish at h
  dsimp only at h
  split at h
  · simp at h
  · simp only [Option.some.injEq, Prod.mk.injEq] at h
    obtain ⟨-, -, rfl⟩ := h
    exact ⟨_, rfl, hwithin⟩

theorem light_onPublishReceive_pump {m : RequestPublishProto} (hm : Light k .publishReq m)
    (pump : Pump E) (memory : RequestPrepare) :
    ∀ o ∈ (pump.onPublishReceive memory (Pump.MsgPublishReqRx.get m)).2,
      Light k .prepareReq (Pump.MsgPrepareReqTx.set o.2) := by
  obtain ⟨request, rfl, hlen⟩ := hm
  intro o ho
  obtain ⟨e, -, rfl⟩ := List.mem_map.mp ho
  refine ⟨_, rfl, ?_⟩
  show 0 + request.message.length ≤ k
  omega

theorem light_onPrepareReceive {m : RequestPrepareProto} (hm : Light k .prepareReq m)
    (engine : Engine N) (ackMemory : ResponsePrepare) (publishMemory : RequestPublish) (p : P) :
    (∀ o ∈ (engine.onPrepareReceive ackMemory publishMemory p
        (Engine.MsgPrepareReqRx.get m)).2.1,
      Light k .prepareRsp (Engine.MsgPrepareRspTx.set o.2)) ∧
    ∀ o ∈ (engine.onPrepareReceive ackMemory publishMemory p
        (Engine.MsgPrepareReqRx.get m)).2.2,
      Light k .publishReq (Engine.MsgPublishReqTx.set o.2) := by
  obtain ⟨request, rfl, hlen⟩ := hm
  constructor
  · intro o ho
    obtain rfl := List.mem_singleton.mp ho
    exact ⟨_, rfl, Nat.zero_le k⟩
  · intro o ho
    obtain ⟨n, -, rfl⟩ := List.mem_map.mp ho
    refine ⟨_, rfl, ?_⟩
    show 0 + request.message.length ≤ k
    omega

theorem light_onPublishReceive_nuzzle {m : RequestPublishProto} (hm : Light k .publishReq m)
    (nuzzle : Nuzzle E C) [DecidableEq E] (e : E) :
    ∀ o ∈ (nuzzle.onPublishReceive e (Nuzzle.MsgPublishReqRx.get m)).2,
      Light k .publishReq (Nuzzle.MsgPublishReqTx.set o.2) := by
  obtain ⟨request, rfl, hlen⟩ := hm
  intro o ho
  rw [Nuzzle.eq_of_mem_onPublishReceive ho]
  exact ⟨_, rfl, hlen⟩

theorem light_onUpdateSubscriptionReceive [DecidableEq C] {nuzzle nuzzle' : Nuzzle E C}
    {memory : E → RequestUpdateSubscription} {c : C} {request : RequestUpdateSubscription}
    {out : List (E × RequestUpdateSubscription)}
    (h : nuzzle.onUpdateSubscriptionReceive memory c request = some (nuzzle', out)) :
    ∀ o ∈ out, Light k .updateSubscriptionReq (Nuzzle.MsgUpdateSubscriptionReqTx.set o.2) := by
  obtain ⟨-, -, -, rfl, -⟩ := Nuzzle.onUpdateSubscriptionReceive_eq_some h
  intro o ho
  obtain ⟨e, -, rfl⟩ := List.mem_map.mp ho
  exact ⟨_, Or.inl rfl, Nat.zero_le k⟩

end Handlers

/-! ## The connections -/

namespace Links

variable {B P E N C T : Type} {k : Nat} {proto : Protobuf} {links links' : Links B P E N C T}

/-- Only light messages have been sent. -/
def AllLight (k : Nat) (proto : Protobuf) (links : Links B P E N C T) : Prop :=
  ∀ d, ∀ m ∈ (links d).sending.pushed, ∃ reqId x, m = d.cls.tx proto reqId x ∧ Light k d.cls x

theorem AllLight.fits (h : AllLight k proto links)
    (hproto : ∀ cls m, Light k cls m → ((proto cls).serialize m).length ≤ maxHeaderLen) :
    Fits links := by
  intro d m hm
  obtain ⟨reqId, x, rfl, hx⟩ := h d m hm
  exact hproto d.cls x hx

variable [DecidableEq B] [DecidableEq P] [DecidableEq E] [DecidableEq N] [DecidableEq C]

theorem AllLight.update (h : AllLight k proto links) {d : Direction B P E N C} {link : Link T}
    (hpushed : link.sending.pushed = (links d).sending.pushed) :
    AllLight k proto (Function.update links d link) := by
  intro d' m hm
  rcases Decidable.em (d' = d) with hsame | hother
  · subst hsame
    rw [Function.update_self, hpushed] at hm
    exact h d' m hm
  · rw [Function.update_of_ne hother] at hm
    exact h d' m hm

variable [DecidableEq T]

omit [DecidableEq B] [DecidableEq P] [DecidableEq E] [DecidableEq N] [DecidableEq C] in
theorem mem_outgoing {Q : Type} {cls : MessageClass} {dir : Q → Direction B P E N C}
    {reqIds : Nat → UInt64} {i : Nat} {l : List (Q × cls.Proto)}
    {o : Direction B P E N C × MessageTx} (h : o ∈ outgoing proto cls dir reqIds i l) :
    ∃ q x reqId, (q, x) ∈ l ∧ o = (dir q, cls.tx proto reqId x) := by
  induction l generalizing i with
  | nil => simp [outgoing] at h
  | cons y rest ih =>
      obtain ⟨q, x⟩ := y
      rcases List.mem_cons.mp h with rfl | hrest
      · exact ⟨q, x, reqIds i, List.mem_cons_self, rfl⟩
      · obtain ⟨q', x', reqId, hmem, rfl⟩ := ih hrest
        exact ⟨q', x', reqId, List.mem_cons_of_mem _ hmem, rfl⟩

theorem AllLight.sendAll (h : AllLight k proto links) {A Q : Type} {cls : MessageClass}
    {taken : List MessageClass} {dir : A × Q → Direction B P E N C}
    (hkind : Direction.OneKind cls taken dir) {a : A} {threads : Nat → T}
    {reqIds : Nat → UInt64} {i j : Nat} {l : List (Q × cls.Proto)}
    (hsend : Links.sendAll proto threads i links
      (outgoing proto cls (fun q => dir (a, q)) reqIds j l) = some links')
    (hl : ∀ o ∈ l, Light k cls o.2) : AllLight k proto links' := by
  intro d m hm
  rcases mem_pushed_sendAll hsend hm with hold | hnew
  · exact h d m hold
  · obtain ⟨q, x, reqId, hmem, heq⟩ := mem_outgoing hnew
    obtain ⟨rfl, rfl⟩ := Prod.mk.inj heq
    have hq := hkind.cls_eq (a, q)
    subst hq
    exact ⟨reqId, x, rfl, hl _ hmem⟩

theorem AllLight.take (h : AllLight k proto links) {ok : Prop} (hs : Sound proto ok links)
    (hfits : Fits links) {d : Direction B P E N C} {now : UInt64} {m : d.cls.Proto}
    (htake : Links.take proto links d now = some (m, links')) :
    Light k d.cls m ∧ AllLight k proto links' := by
  constructor
  · obtain ⟨x, link, -, -, hpop, hm⟩ := hs.take htake
    obtain ⟨reqId, y, hy, hpushed⟩ := hs.received hfits hpop
    rw [hm] at hy
    obtain rfl := Option.some.inj hy
    obtain ⟨reqId', z, heq, hz⟩ := h d _ hpushed
    rwa [tx_inj (hfits d _ hpushed) heq]
  · intro d' m' hm'
    rw [pushed_take htake d'] at hm'
    exact h d' m' hm'

end Links

/-! ## Runs -/

namespace Deployed

variable {B P E N C T : Type} {k : Nat} {proto : Protobuf} {s s' : Deployed B P E N C T}
variable [DecidableEq B] [DecidableEq P] [DecidableEq E] [DecidableEq N] [DecidableEq C]
variable [DecidableEq T]

theorem allLight_nextParty {ok : Prop} (hlight : Links.AllLight k proto s.links)
    (hs : Links.Sound proto ok s.links) (hfits : Links.Fits s.links) {time : UInt64}
    {threads : Nat → T} {reqIds : Nat → UInt64} {a : Action B P E N C} (hwithin : a.Within k)
    (h : nextParty proto s time threads reqIds a = some s') :
    Links.AllLight k proto s'.links := by
  cases a with
  | connectToPump b p | connectToNuzzle c n =>
      obtain rfl := Option.some.inj h
      exact hlight
  | pumpConnectToEngine p e | nuzzleConnectToEngine n e =>
      simp only [nextParty] at h
      split at h
      · simp at h
      · obtain rfl := Option.some.inj h
        exact hlight
  | publish b now request =>
      simp only [nextParty] at h
      split at h
      · simp at h
      · rename_i publisher p sent hpublish
        obtain ⟨links, hsend, rfl⟩ := Option.map_eq_some_iff.mp h
        refine hlight.sendAll Direction.oneKind_publish hsend fun o ho => ?_
        obtain rfl := List.mem_singleton.mp ho
        exact light_publish hpublish hwithin
  | updateSubscribtion c request =>
      simp only [nextParty] at h
      split at h
      · simp at h
      · rename_i n sent hupdate
        obtain ⟨links, hsend, rfl⟩ := Option.map_eq_some_iff.mp h
        obtain ⟨connection, -, heq⟩ := Option.map_eq_some_iff.mp hupdate
        obtain ⟨-, rfl⟩ := Prod.mk.inj heq
        refine hlight.sendAll Direction.oneKind_request hsend fun o ho => ?_
        obtain rfl := List.mem_singleton.mp ho
        exact ⟨request, Or.inr rfl, hwithin⟩
  | pumpOnPublish b p memory =>
      simp only [nextParty] at h
      split at h
      · simp at h
      · rename_i m links htake
        obtain ⟨links', hsend, rfl⟩ := Option.map_eq_some_iff.mp h
        obtain ⟨hm, hrest⟩ := hlight.take hs hfits htake
        exact hrest.sendAll Direction.oneKind_prepare hsend
          (List.forall_mem_map.mpr (light_onPublishReceive_pump hm (s.pump p) memory))
  | pumpOnPrepareAck e p | consumerOnPublish n c now now' =>
      obtain ⟨⟨m, links⟩, htake, rfl⟩ := Option.map_eq_some_iff.mp h
      exact (hlight.take hs hfits htake).2
  | engineOnPrepare p e ackMemory publishMemory =>
      simp only [nextParty] at h
      split at h
      · simp at h
      · rename_i m links htake
        split at h
        · simp at h
        · rename_i links₁ hack
          obtain ⟨links', hsend, rfl⟩ := Option.map_eq_some_iff.mp h
          obtain ⟨hm, hrest⟩ := hlight.take hs hfits htake
          obtain ⟨hacks, hfanouts⟩ :=
            light_onPrepareReceive hm (s.engine e) ackMemory publishMemory p
          have hlight₁ := hrest.sendAll Direction.oneKind_ack hack (List.forall_mem_map.mpr hacks)
          exact hlight₁.sendAll Direction.oneKind_fanout hsend (List.forall_mem_map.mpr hfanouts)
  | engineOnUpdate n e =>
      simp only [nextParty] at h
      split at h
      · simp at h
      · rename_i m links htake
        obtain ⟨engine, -, rfl⟩ := Option.map_eq_some_iff.mp h
        exact (hlight.take hs hfits htake).2
  | nuzzleOnPublish e n =>
      simp only [nextParty] at h
      split at h
      · simp at h
      · rename_i m links htake
        obtain ⟨links', hsend, rfl⟩ := Option.map_eq_some_iff.mp h
        obtain ⟨hm, hrest⟩ := hlight.take hs hfits htake
        exact hrest.sendAll Direction.oneKind_delivery hsend
          (List.forall_mem_map.mpr (light_onPublishReceive_nuzzle hm (s.nuzzle n) e))
  | nuzzleOnUpdate c n memory =>
      simp only [nextParty] at h
      split at h
      · simp at h
      · rename_i m links htake
        split at h
        · simp at h
        · rename_i nuzzle out hupdate
          obtain ⟨links', hsend, rfl⟩ := Option.map_eq_some_iff.mp h
          exact (hlight.take hs hfits htake).2.sendAll Direction.oneKind_update hsend
            (List.forall_mem_map.mpr (light_onUpdateSubscriptionReceive hupdate))

theorem allLight_next {ok : Prop} (hlight : Links.AllLight k proto s.links)
    (hs : Links.Sound proto ok s.links) (hfits : Links.Fits s.links)
    {a : DeployedAction B P E N C T} (hwithin : a.Within k) (h : next proto s a = some s') :
    Links.AllLight k proto s'.links := by
  cases a with
  | link d a =>
      simp only [next] at h
      split at h
      · simp at h
      · rename_i hnone
        obtain ⟨link, hstep, rfl⟩ := Option.map_eq_some_iff.mp h
        exact hlight.update (Link.pushed_eq_of_event hstep hnone).2
  | ignored d now =>
      simp only [next] at h
      split at h
      · simp at h
      · rename_i r link hreceive
        split at h
        · simp at h
        · obtain rfl := Option.some.inj h
          exact hlight.update (Link.receive_eq_some hreceive).2.2.2
  | party a now threads reqIds => exact allLight_nextParty hlight hs hfits hwithin h

variable {groupSize : UInt16} {headerBuf headerBuf' : Direction B P E N C → Bytes}
variable {preHeader preHeader' : Direction B P E N C → PreHeader}
variable {trace : List (Deployed B P E N C T × DeployedAction B P E N C T)}

theorem allLight_run
    (hproto : ∀ cls m, Light k cls m → ((proto cls).serialize m).length ≤ maxHeaderLen)
    (h : Runs proto groupSize headerBuf headerBuf' preHeader preHeader' trace s)
    (hwithin : ∀ x ∈ trace, x.2.Within k) :
    Throughout (fun s => Links.AllLight k proto s.links ∧ Links.Sound proto False s.links)
      trace s := by
  refine h.throughout (C := fun _ a => a.Within k) hwithin ?_ ?_
  · refine ⟨fun d m hm => ?_, fun d => .start .., fun d m hm => ?_⟩
    · simp [start, Link.start, Sending.start] at hm
    · simp [start, Link.start, Sending.start] at hm
  · rintro s a s' ⟨hlight, hs⟩ ha hstep
    have hlight' := allLight_next hlight hs (hlight.fits hproto) ha hstep
    exact ⟨hlight', (next_abs hs hstep (hlight'.fits hproto) False.elim).1⟩

/-- In a run in which the clients leave room for the numbers, every header fits into its
buffer at both ends of its connection, and so the run is one over channels; the library only
has to write what it announces. -/
theorem headers_fit (hexact : proto.Exact) (hk : 300 + k ≤ maxHeaderLen)
    (h : Runs proto groupSize headerBuf headerBuf' preHeader preHeader' trace s)
    (hwithin : ∀ x ∈ trace, x.2.Within k) :
    Throughout (fun s => Links.Fits s.links) trace s ∧
      State.Runs groupSize (projectTrace (abs proto) event trace) (abs proto s) := by
  have hproto : ∀ cls m, Light k cls m → ((proto cls).serialize m).length ≤ maxHeaderLen :=
    Light.fits hexact hk
  have hlight := allLight_run hproto h hwithin
  have hfits := hlight.2.1.fits hproto
  exact ⟨⟨fun x hx => (hlight.1 x hx).1.fits hproto, hfits⟩, (abs_run h hfits False.elim).2⟩

theorem headers_fit_oneDelivery :
    ∃ (trace : List (Deployed Unit Unit Unit Unit Unit Unit ×
        DeployedAction Unit Unit Unit Unit Unit Unit))
      (s : Deployed Unit Unit Unit Unit Unit Unit),
      (s.nuzzle ()).subscriptions.get 7 = [()] ∧
        Throughout (fun s => Links.Fits s.links) trace s := by
  obtain ⟨trace, s, hrun, hwithin, hsubs⟩ :=
    exists_run_of_execute (oneDelivery () () () () () ()) (next protobuf)
      (start 1 (fun _ => []) (fun _ => []) (fun _ => default) fun _ => default)
      (fun trace s => (∀ x ∈ trace, x.2.Within 1) ∧ (s.nuzzle ()).subscriptions.get 7 = [()])
      (by decide +kernel)
  exact ⟨trace, s, hsubs, (headers_fit protobuf_exact (by decide) hrun hwithin).1⟩

end Deployed

end Firehose.Cluster
