import Firehose.Cluster.Projection
import Mathlib.Data.List.Nodup

set_option autoImplicit false

/-!
# What a pump numbers and sends

Over any run of a pump the publishes it has handled carry the numbers 0, 1, 2, … cut to
64 bits, and what it has sent to an engine are the prepares of those it handled while
the engine was connected, in their order.
-/

namespace Firehose.Cluster

open Firehose.Api Firehose.Foundation Firehose.Node
open Function (update)
open Channel (addressedTo)

/-- A publish a pump has handled: the pump as it was before, what its local struct held,
and the message. -/
structure Handled (E : Type) where
  before : Pump E
  memory : RequestPrepare
  publish : RequestPublishProto

namespace Handled

variable {E : Type}

/-- The prepare that went to every engine connected at the time. -/
def prepare (x : Handled E) : RequestPrepareProto :=
  Pump.MsgPrepareReqTx.set (x.before.prepareOf x.memory (Pump.MsgPublishReqRx.get x.publish))

/-- What went out: the prepare, once for every engine connection there was. -/
def sent (x : Handled E) : List (E × RequestPrepareProto) :=
  (x.before.onPublishReceive x.memory (Pump.MsgPublishReqRx.get x.publish)).2.map fun o =>
    (o.1, Pump.MsgPrepareReqTx.set o.2)

/-- The key the publish was given. -/
def key (x : Handled E) : Key := x.prepare.key

@[simp] theorem prepare_key (x : Handled E) : x.prepare.key = x.key := rfl

theorem key_eq (x : Handled E) : x.key = (x.publish.topicId, x.before.globalRequestIdSeed) := rfl

theorem sent_eq (x : Handled E) :
    x.sent = x.before.engineConnections.map fun e => (e, x.prepare) := by
  simp [sent, Pump.onPublishReceive, prepare]

theorem mem_sent {x : Handled E} {o : E × RequestPrepareProto} :
    o ∈ x.sent ↔ o.1 ∈ x.before.engineConnections ∧ o.2 = x.prepare := by
  rw [sent_eq, List.mem_map]
  constructor
  · rintro ⟨e, he, rfl⟩
    exact ⟨he, rfl⟩
  · rintro ⟨he, hm⟩
    exact ⟨o.1, he, by rw [← hm]⟩

end Handled

namespace PumpNode

variable {E : Type} [DecidableEq E]

/-- The publish that a step handles. -/
def handledAt (node : PumpNode E) : PumpEvent E → Option (Handled E)
  | .connect _ => none
  | .publish memory m => some ⟨node.pump, memory, m⟩

/-- The publishes handled in a trace, in order. -/
def handled (trace : List (PumpNode E × PumpEvent E)) : List (Handled E) :=
  trace.filterMap fun x => handledAt x.1 x.2

/-- A pump in terms of the publishes it has handled. -/
structure Numbered (handled : List (Handled E)) (node : PumpNode E) : Prop where
  seed_eq : node.pump.globalRequestIdSeed = UInt64.ofNat handled.length
  ids_eq : handled.map (·.before.globalRequestIdSeed) =
    (List.range handled.length).map UInt64.ofNat
  nodup : node.pump.engineConnections.Nodup
  grown : ∀ x ∈ handled, ∀ e ∈ x.before.engineConnections, e ∈ node.pump.engineConnections
  prepares_eq : ∀ e, node.prepares e =
    (handled.filter fun x => decide (e ∈ x.before.engineConnections)).map Handled.prepare

theorem numbered_start : Numbered [] (start : PumpNode E) where
  seed_eq := rfl
  ids_eq := rfl
  nodup := List.nodup_nil
  grown := by simp
  prepares_eq := fun _ => rfl

theorem Numbered.connect {handled : List (Handled E)} {node : PumpNode E}
    (h : Numbered handled node) {e : E} (hfresh : e ∉ node.pump.engineConnections) :
    Numbered handled { node with pump := node.pump.connectToEngine e } where
  seed_eq := h.seed_eq
  ids_eq := h.ids_eq
  nodup := List.nodup_append.mpr ⟨h.nodup, List.nodup_singleton e, fun a ha b hb => by
    rintro rfl
    exact hfresh (by simpa [List.mem_singleton.mp hb] using ha)⟩
  grown := fun x hx e' he' => List.mem_append_left _ (h.grown x hx e' he')
  prepares_eq := h.prepares_eq

theorem Numbered.publish {handled : List (Handled E)} {node : PumpNode E}
    (h : Numbered handled node) (memory : RequestPrepare) (m : RequestPublishProto)
    {node' : PumpNode E} (hstep : Steps next node (.publish memory m) node') :
    Numbered (handled ++ [⟨node.pump, memory, m⟩]) node' := by
  simp only [Steps, next, Option.some.injEq] at hstep
  subst hstep
  refine ⟨?_, ?_, h.nodup, ?_, fun e => ?_⟩
  · simp [Pump.onPublishReceive, h.seed_eq]
  · simp [List.range_succ, h.ids_eq, h.seed_eq]
  · intro x hx e he
    rcases List.mem_append.mp hx with hold | hnew
    · exact h.grown x hold e he
    · rw [List.mem_singleton.mp hnew] at he
      exact he
  · -- one prepare for each time the engine is listed, and it is listed at most once
    have hsent : addressedTo e ((node.pump.onPublishReceive memory
          (Pump.MsgPublishReqRx.get m)).2.map fun o => (o.1, Pump.MsgPrepareReqTx.set o.2)) =
        List.replicate (node.pump.engineConnections.count e)
          (Handled.prepare ⟨node.pump, memory, m⟩) := by
      simp only [Pump.onPublishReceive, List.map_map]
      exact Channel.addressedTo_map e node.pump.engineConnections fun _ =>
        Handled.prepare ⟨node.pump, memory, m⟩
    show node.prepares e ++ addressedTo e _ = _
    rw [hsent, h.prepares_eq, List.filter_append, List.map_append]
    congr 1
    by_cases he : e ∈ node.pump.engineConnections
    · simp [List.count_eq_one_of_mem h.nodup he, he]
    · simp [List.count_eq_zero_of_not_mem he, he]

theorem numbered_next {trace : List (PumpNode E × PumpEvent E)} {node node' : PumpNode E}
    {event : PumpEvent E} (h : Numbered (handled trace) node)
    (hstep : Steps next node event node') :
    Numbered (handled (trace ++ [(node, event)])) node' := by
  unfold handled at h ⊢
  rw [List.filterMap_append]
  cases event with
  | connect e =>
      simp only [Steps, next] at hstep
      split at hstep
      · simp at hstep
      · rename_i hfresh
        simp only [Option.some.injEq] at hstep
        subst hstep
        simpa [handledAt] using h.connect hfresh
  | publish memory m => simpa [handledAt] using h.publish memory m hstep

theorem numbered_run {trace : List (PumpNode E × PumpEvent E)} {node : PumpNode E}
    (h : Run (Steps next) start trace node) : Numbered (handled trace) node :=
  h.history_keeps (I := fun trace => Numbered (handled trace)) numbered_start
    fun _ _ _ _ hinv hstep => numbered_next hinv hstep

/-- A pump loses no engine. -/
theorem engineConnections_next {node node' : PumpNode E} {event : PumpEvent E} {e : E}
    (he : e ∈ node.pump.engineConnections) (h : Steps next node event node') :
    e ∈ node'.pump.engineConnections := by
  cases event with
  | connect e' =>
      simp only [Steps, next] at h
      split at h
      · simp at h
      · rw [← Option.some.inj h]
        exact List.mem_append_left _ he
  | publish memory m =>
      simp only [Steps, next, Option.some.injEq] at h
      rw [← h]
      exact he

namespace Numbered

variable {handled : List (Handled E)} {node : PumpNode E}

/-- The publish handled after `k` others is numbered `k`. -/
theorem id_of_getElem? (h : Numbered handled node) {k : Nat} {x : Handled E}
    (hx : handled[k]? = some x) : x.before.globalRequestIdSeed = UInt64.ofNat k := by
  have hlt : k < handled.length := (List.getElem?_eq_some_iff.mp hx).1
  have hid := congrArg (·[k]?) h.ids_eq
  simpa [hx, List.getElem?_range hlt] using hid

omit [DecidableEq E] in
/-- Cutting to 64 bits changes no position below 2^64. -/
theorem toNat_ofNat_index {k : Nat} (hfew : handled.length ≤ 2 ^ 64)
    (hk : k < handled.length) : (UInt64.ofNat k).toNat = k :=
  UInt64.toNat_ofNat_of_lt' (Nat.lt_of_lt_of_le hk hfew)

/-- Below 2^64 publishes the numbers rise. -/
theorem ids_increasing (h : Numbered handled node) (hfew : handled.length ≤ 2 ^ 64) :
    (handled.map (·.before.globalRequestIdSeed)).Pairwise (· < ·) := by
  rw [h.ids_eq, List.pairwise_map]
  refine List.pairwise_lt_range.imp_of_mem ?_
  intro i j hi hj hij
  rw [UInt64.lt_iff_toNat_lt, toNat_ofNat_index hfew (List.mem_range.mp hi),
    toNat_ofNat_index hfew (List.mem_range.mp hj)]
  exact hij

/-- Below 2^64 publishes a number says which publish it was given to. -/
theorem eq_of_id_eq (h : Numbered handled node) (hfew : handled.length ≤ 2 ^ 64)
    {x y : Handled E} (hx : x ∈ handled) (hy : y ∈ handled)
    (hid : x.before.globalRequestIdSeed = y.before.globalRequestIdSeed) : x = y := by
  obtain ⟨i, hi⟩ := List.mem_iff_getElem?.mp hx
  obtain ⟨j, hj⟩ := List.mem_iff_getElem?.mp hy
  have hilt : i < handled.length := (List.getElem?_eq_some_iff.mp hi).1
  have hjlt : j < handled.length := (List.getElem?_eq_some_iff.mp hj).1
  rw [h.id_of_getElem? hi, h.id_of_getElem? hj] at hid
  have hnat := congrArg UInt64.toNat hid
  rw [toNat_ofNat_index hfew hilt, toNat_ofNat_index hfew hjlt] at hnat
  subst hnat
  exact Option.some.inj (hi.symm.trans hj)

/-- Below 2^64 publishes no key is given out twice. -/
theorem keys_nodup (h : Numbered handled node) (hfew : handled.length ≤ 2 ^ 64) :
    (handled.map Handled.key).Nodup := by
  have hids := h.ids_increasing hfew
  rw [List.pairwise_map] at hids
  refine List.pairwise_map.mpr (hids.imp fun {x y} hlt heq => ?_)
  rw [x.key_eq, y.key_eq, Prod.mk.injEq] at heq
  exact absurd (heq.2 ▸ hlt) (UInt64.lt_irrefl _)

theorem mem_prepares (h : Numbered handled node) {e : E} {m : RequestPrepareProto} :
    m ∈ node.prepares e ↔
      ∃ x ∈ handled, e ∈ x.before.engineConnections ∧ x.prepare = m := by
  simp [h.prepares_eq, and_assoc]

/-- An engine connected from the first publish on is sent every prepare. -/
theorem prepares_eq_of_connected (h : Numbered handled node) {e : E}
    (hconn : ∀ x ∈ handled, e ∈ x.before.engineConnections) :
    node.prepares e = handled.map Handled.prepare := by
  rw [h.prepares_eq, List.filter_eq_self.mpr (by simpa using hconn)]

end Numbered

end PumpNode

/-! ## The pumps of the system -/

namespace State

variable {B P E N C : Type}
variable [DecidableEq B] [DecidableEq P] [DecidableEq E] [DecidableEq N] [DecidableEq C]

/-- The publish that a step makes a pump handle. -/
def handledAt (p : P) (s : State B P E N C) : Action B P E N C → Option (Handled E)
  | .pumpOnPublish b p' memory =>
      if p' = p then (s.publishes (b, p)).queue.head?.map fun m => ⟨s.pump p, memory, m⟩
      else none
  | _ => none

/-- The publishes that a pump has handled, in order. -/
def handledBy (p : P) (trace : Trace B P E N C) :
    List (Handled E) :=
  trace.filterMap fun x => handledAt p x.1 x.2

omit [DecidableEq B] [DecidableEq E] [DecidableEq N] [DecidableEq C] in
theorem handledBy_append (p : P) (t₁ t₂ : Trace B P E N C) :
    handledBy p (t₁ ++ t₂) = handledBy p t₁ ++ handledBy p t₂ := List.filterMap_append

omit [DecidableEq B] [DecidableEq E] [DecidableEq N] [DecidableEq C] in
theorem handledAt_eq (p : P) (s : State B P E N C) (a : Action B P E N C) :
    handledAt p s a = (pumpEvent p s a).bind (PumpNode.handledAt (s.pumpNode p)) := by
  cases a with
  | pumpConnectToEngine p' e =>
      by_cases hp : p' = p <;> simp [handledAt, pumpEvent, PumpNode.handledAt, hp]
  | pumpOnPublish b p' memory =>
      by_cases hp : p' = p
      · cases hq : (s.publishes (b, p)).queue.head? <;>
          simp [handledAt, pumpEvent, PumpNode.handledAt, pumpNode, hp, hq]
      · simp [handledAt, pumpEvent, hp]
  | _ => rfl

omit [DecidableEq B] [DecidableEq E] [DecidableEq N] [DecidableEq C] in
/-- They are those the pump has handled in its own view of the run. -/
theorem handled_projectTrace (p : P) (trace : Trace B P E N C) :
    PumpNode.handled (projectTrace (pumpNode · p) (pumpEvent p) trace) =
      handledBy p trace := by
  unfold PumpNode.handled projectTrace handledBy
  rw [List.filterMap_filterMap]
  congr 1
  funext x
  rw [handledAt_eq]
  cases pumpEvent p x.1 x.2 <;> rfl

/-- Every engine was connected to the pump at each publish it handled. -/
def AllConnected (p : P) (trace : Trace B P E N C) : Prop :=
  ∀ x ∈ handledBy p trace, ∀ e, e ∈ x.before.engineConnections

instance [Fintype E] (p : P) (trace : Trace B P E N C) : Decidable (AllConnected p trace) :=
  inferInstanceAs (Decidable (∀ x ∈ handledBy p trace, ∀ e, e ∈ x.before.engineConnections))

variable {groupSize : UInt16} {trace : Trace B P E N C} {s : State B P E N C}

theorem Runs.numbered (h : Runs groupSize trace s) (p : P) :
    PumpNode.Numbered (handledBy p trace) (s.pumpNode p) := by
  rw [← handled_projectTrace]
  exact PumpNode.numbered_run (h.pumpNode p)

end State

end Firehose.Cluster
