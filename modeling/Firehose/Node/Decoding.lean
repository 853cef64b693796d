import Firehose.Api.RoundTrip
import Firehose.Node.Engine
import Firehose.Node.Nuzzle
import Mathlib.Algebra.Ring.Int.Defs

set_option autoImplicit false

/-!
# What encoding makes of what was decoded

The structs are narrower than the messages in two places: an `int` takes the `int64`
identifier of a request, and a `uint8_t` the `uint32` action.  A message is represented
faithfully exactly when both values fit.
-/

namespace Firehose.Node

open Firehose.Api Firehose.Foundation

/-! ## The narrowed values -/

/-- An `int64` that an `int` can hold. -/
def FitsInt (value : Int64) : Prop := -2 ^ 31 ≤ value.toInt ∧ value.toInt < 2 ^ 31

instance (value : Int64) : Decidable (FitsInt value) := inferInstanceAs (Decidable (_ ∧ _))

theorem toInt64_toInt32_eq_iff (value : Int64) :
    value.toInt32.toInt64 = value ↔ FitsInt value := by
  rw [← Int64.toInt_inj, Int32.toInt_toInt64, Int64.toInt_toInt32]
  unfold FitsInt
  constructor
  · intro h
    have hlow := Int32.le_toInt value.toInt32
    have hhigh := Int32.toInt_lt value.toInt32
    rw [Int64.toInt_toInt32, h] at hlow hhigh
    exact ⟨hlow, hhigh⟩
  · rintro ⟨hlow, hhigh⟩
    exact Int.bmod_eq_of_le (by omega) (by omega)

theorem toUInt32_toUInt8_eq_iff (value : UInt32) :
    value.toUInt8.toUInt32 = value ↔ value.toNat < 256 := by
  rw [← UInt32.toNat_inj, UInt8.toNat_toUInt32, UInt32.toNat_toUInt8]
  omega

/-- The action decides alone whether a request is a subscribe, and only its last byte. -/
theorem isSubscribe_get_iff (m : RequestUpdateSubscriptionProto) :
    m.get.isSubscribe = true ↔ m.action.toNat % 256 = 1 := by
  unfold RequestUpdateSubscription.isSubscribe RequestUpdateSubscriptionProto.get
  rw [beq_iff_eq, ← UInt8.toNat_inj, UInt32.toNat_toUInt8]
  rfl

/-! ## Messages that say the same -/

/-- Two headers say the same: their accessors return the same values. -/
def SameRequestHeader (p q : RequestHeaderProto) : Prop :=
  p.senderId.getD 0 = q.senderId.getD 0 ∧
    p.senderRequestId.getD 0 = q.senderRequestId.getD 0 ∧
    p.baggage.getD [] = q.baggage.getD []

def SameResponseHeader (p q : ResponseHeaderProto) : Prop :=
  p.senderRequestId.getD 0 = q.senderRequestId.getD 0 ∧
    p.status.getD 0 = q.status.getD 0 ∧
    p.message.getD [] = q.message.getD [] ∧
    p.baggage.getD [] = q.baggage.getD []

theorem sameRequestHeader_iff (p : RequestHeaderProto) :
    SameRequestHeader p.getHeader.setHeader p ↔ FitsInt (p.senderRequestId.getD 0) := by
  unfold SameRequestHeader RequestHeaderProto.getHeader RequestHeader.setHeader
  rw [← toInt64_toInt32_eq_iff]
  simp

theorem sameResponseHeader_iff (p : ResponseHeaderProto) :
    SameResponseHeader p.getHeader.setHeader p ↔ FitsInt (p.senderRequestId.getD 0) := by
  unfold SameResponseHeader ResponseHeaderProto.getHeader ResponseHeader.setHeader
  rw [← toInt64_toInt32_eq_iff]
  simp

/-- A message that a generated parser has accepted. -/
inductive Parsed
  | publish (m : RequestPublishProto)
  | prepare (m : RequestPrepareProto)
  | accept (m : RequestAcceptProto)
  | prepareAck (m : ResponsePrepareProto)
  | publishAck (m : ResponsePublishProto)
  | update (m : RequestUpdateSubscriptionProto)
  | updateAck (m : ResponseUpdateSubscriptionProto)

namespace Parsed

/-- Decoded by its `get` and encoded again by the matching `set`. -/
def reencode : Parsed → Parsed
  | publish m => publish m.get.set
  | prepare m => prepare m.get.set
  | accept m => accept m.get.set
  | prepareAck m => prepareAck m.get.set
  | publishAck m => publishAck m.get.set
  | update m => update m.get.set
  | updateAck m => updateAck m.get.set

/-- Two messages of one type have the same header, topic, identifier, timestamp, action and
payload. -/
def Same : Parsed → Parsed → Prop
  | publish m, publish m' =>
      SameRequestHeader m.header m'.header ∧ m.topicId = m'.topicId ∧
        m.globalId.getD 0 = m'.globalId.getD 0 ∧ m.timestamp = m'.timestamp ∧
        m.message = m'.message
  | prepare m, prepare m' =>
      SameRequestHeader m.header m'.header ∧ m.topicId = m'.topicId ∧
        m.globalId = m'.globalId ∧ m.timestamp = m'.timestamp ∧ m.message = m'.message
  | accept m, accept m' =>
      SameRequestHeader m.header m'.header ∧ m.topicId = m'.topicId ∧
        m.globalId = m'.globalId ∧ m.timestamp = m'.timestamp
  | prepareAck m, prepareAck m' =>
      SameResponseHeader m.header m'.header ∧ m.topicId = m'.topicId ∧
        m.globalId = m'.globalId ∧ m.timestamp = m'.timestamp
  | publishAck m, publishAck m' =>
      SameResponseHeader m.header m'.header ∧ m.topicId = m'.topicId ∧
        m.globalId.getD 0 = m'.globalId.getD 0 ∧ m.timestamp = m'.timestamp
  | update m, update m' =>
      SameRequestHeader m.header m'.header ∧ m.topicId = m'.topicId ∧
        m.timestamp = m'.timestamp ∧ m.action = m'.action
  | updateAck m, updateAck m' =>
      SameResponseHeader m.header m'.header ∧ m.topicId = m'.topicId ∧
        m.timestamp = m'.timestamp ∧ m.action = m'.action
  | _, _ => False

/-- `sender_request_id()` of the header. -/
def senderRequestId : Parsed → Int64
  | publish m => m.header.senderRequestId.getD 0
  | prepare m => m.header.senderRequestId.getD 0
  | accept m => m.header.senderRequestId.getD 0
  | prepareAck m => m.header.senderRequestId.getD 0
  | publishAck m => m.header.senderRequestId.getD 0
  | update m => m.header.senderRequestId.getD 0
  | updateAck m => m.header.senderRequestId.getD 0

/-- The action, where the message has one. -/
def action : Parsed → Option UInt32
  | update m => some m.action
  | updateAck m => some m.action
  | _ => none

/-- Every value fits the struct it is decoded into. -/
def Fits (w : Parsed) : Prop :=
  FitsInt w.senderRequestId ∧ ∀ a ∈ w.action, a.toNat < 256

/-- A message survives decoding and encoding exactly when its values fit. -/
theorem same_reencode_iff (w : Parsed) : w.reencode.Same w ↔ w.Fits := by
  cases w with
  | publish m =>
      have hheader := sameRequestHeader_iff m.header
      simpa [reencode, Same, Fits, senderRequestId, action, RequestPublish.set,
        RequestPublishProto.get] using hheader
  | prepare m =>
      have hheader := sameRequestHeader_iff m.header
      simpa [reencode, Same, Fits, senderRequestId, action, RequestPrepare.set,
        RequestPrepareProto.get] using hheader
  | accept m =>
      have hheader := sameRequestHeader_iff m.header
      simpa [reencode, Same, Fits, senderRequestId, action, RequestAccept.set,
        RequestAcceptProto.get] using hheader
  | prepareAck m =>
      have hheader := sameResponseHeader_iff m.header
      simpa [reencode, Same, Fits, senderRequestId, action, ResponsePrepare.set,
        ResponsePrepareProto.get] using hheader
  | publishAck m =>
      have hheader := sameResponseHeader_iff m.header
      simpa [reencode, Same, Fits, senderRequestId, action, ResponsePublish.set,
        ResponsePublishProto.get] using hheader
  | update m =>
      have hheader := sameRequestHeader_iff m.header
      have haction := toUInt32_toUInt8_eq_iff m.action
      simpa [reencode, Same, Fits, senderRequestId, action, RequestUpdateSubscription.set,
        RequestUpdateSubscription.setWithTelemetry, RequestUpdateSubscriptionProto.get] using
        and_congr hheader haction
  | updateAck m =>
      have hheader := sameResponseHeader_iff m.header
      have haction := toUInt32_toUInt8_eq_iff m.action
      simpa [reencode, Same, Fits, senderRequestId, action, ResponseUpdateSubscription.set,
        ResponseUpdateSubscriptionProto.get] using and_congr hheader haction

end Parsed

/-! ## The handlers of an update -/

/-- An unsubscribe lists no connection more often than before. -/
theorem Engine.isSubscribe_of_count_lt {N : Type} [DecidableEq N] {engine engine' : Engine N}
    {connection : N} {request : RequestUpdateSubscription}
    (hup : engine.onUpdateSubscriptionReceive connection request = some engine')
    {topic : UInt64} {nuzzle : N}
    (hmore : (engine.subscriptions.get topic).count nuzzle <
      (engine'.subscriptions.get topic).count nuzzle) : request.isSubscribe = true := by
  by_contra hsub
  simp only [onUpdateSubscriptionReceive, hsub, if_false] at hup
  rw [(unsubscribe_eq_some hup).2.2.2 topic] at hmore
  split at hmore
  · have hle := List.erase_sublist (a := connection) (l := engine.subscriptions.get topic)
    exact absurd (hle.count_le nuzzle) (Nat.not_le.mpr hmore)
  · exact absurd hmore (Nat.lt_irrefl _)

theorem Nuzzle.isSubscribe_of_count_lt {E C : Type} [DecidableEq C] {nuzzle nuzzle' : Nuzzle E C}
    {memory : E → RequestUpdateSubscription} {connection : C}
    {request : RequestUpdateSubscription} {out : List (E × RequestUpdateSubscription)}
    (hup : nuzzle.onUpdateSubscriptionReceive memory connection request = some (nuzzle', out))
    {topic : UInt64} {consumer : C}
    (hmore : (nuzzle.subscriptions.get topic).count consumer <
      (nuzzle'.subscriptions.get topic).count consumer) : request.isSubscribe = true := by
  by_contra hsub
  obtain ⟨-, -, -, -, hother, hown⟩ := onUpdateSubscriptionReceive_eq_some hup
  simp only [hsub, if_false] at hown
  by_cases ht : topic = request.topicId
  · subst ht
    rw [hown.2] at hmore
    have hle := List.erase_sublist (a := connection)
      (l := nuzzle.subscriptions.get request.topicId)
    exact absurd (hle.count_le consumer) (Nat.not_le.mpr hmore)
  · rw [hother topic ht] at hmore
    exact absurd hmore (Nat.lt_irrefl _)

/-! ## Faithful decoding -/

/-- The decoders represent the messages of a traffic as they are on the wire, and only an
action of 1 makes a server list a connection once more. -/
structure Faithful (traffic : Set Parsed) : Prop where
  same : ∀ w ∈ traffic, w.reencode.Same w
  updates : ∀ m m', .update m ∈ traffic → .update m' ∈ traffic → m.action ≠ m'.action →
    m.get ≠ m'.get
  updateAcks : ∀ m m', .updateAck m ∈ traffic → .updateAck m' ∈ traffic →
    m.action ≠ m'.action → m.get ≠ m'.get
  engine : ∀ m, .update m ∈ traffic → ∀ (N : Type) [DecidableEq N] (engine engine' : Engine N)
    (connection : N), engine.onUpdateSubscriptionReceive connection m.get = some engine' →
    ∀ topic nuzzle, (engine.subscriptions.get topic).count nuzzle <
      (engine'.subscriptions.get topic).count nuzzle → m.action = 1
  nuzzle : ∀ m, .update m ∈ traffic → ∀ (E C : Type) [DecidableEq C] (nuzzle nuzzle' : Nuzzle E C)
    (memory : E → RequestUpdateSubscription) (connection : C)
    (out : List (E × RequestUpdateSubscription)),
    nuzzle.onUpdateSubscriptionReceive memory connection m.get = some (nuzzle', out) →
    ∀ topic consumer, (nuzzle.subscriptions.get topic).count consumer <
      (nuzzle'.subscriptions.get topic).count consumer → m.action = 1

/-- An action that fits is known from its last byte. -/
theorem action_eq_of_toUInt8_eq {a b : UInt32} (ha : a.toNat < 256) (hb : b.toNat < 256)
    (h : a.toUInt8 = b.toUInt8) : a = b := by
  rw [← (toUInt32_toUInt8_eq_iff a).mpr ha, ← (toUInt32_toUInt8_eq_iff b).mpr hb, h]

theorem action_eq_one_of_isSubscribe {m : RequestUpdateSubscriptionProto}
    (hfits : m.action.toNat < 256) (h : m.get.isSubscribe = true) : m.action = 1 := by
  have hone := (isSubscribe_get_iff m).mp h
  rw [Nat.mod_eq_of_lt hfits] at hone
  exact UInt32.toNat_inj.mp hone

/-- A traffic is decoded faithfully exactly when the values of all its messages fit. -/
theorem faithful_iff (traffic : Set Parsed) : Faithful traffic ↔ ∀ w ∈ traffic, w.Fits := by
  constructor
  · exact fun h w hw => (Parsed.same_reencode_iff w).mp (h.same w hw)
  · intro hfits
    have hupdate : ∀ m, .update m ∈ traffic → m.action.toNat < 256 :=
      fun m hm => (hfits _ hm).2 m.action rfl
    have hack : ∀ m, .updateAck m ∈ traffic → m.action.toNat < 256 :=
      fun m hm => (hfits _ hm).2 m.action rfl
    refine ⟨fun w hw => (Parsed.same_reencode_iff w).mpr (hfits w hw), ?_, ?_, ?_, ?_⟩
    · intro m m' hm hm' hne heq
      exact hne (action_eq_of_toUInt8_eq (hupdate m hm) (hupdate m' hm')
        (congrArg RequestUpdateSubscription.action heq))
    · intro m m' hm hm' hne heq
      exact hne (action_eq_of_toUInt8_eq (hack m hm) (hack m' hm')
        (congrArg ResponseUpdateSubscription.action heq))
    · intro m hm N _ engine engine' connection hup topic nuzzle hmore
      exact action_eq_one_of_isSubscribe (hupdate m hm)
        (Engine.isSubscribe_of_count_lt hup hmore)
    · intro m hm E C _ nuzzle nuzzle' memory connection out hup topic consumer hmore
      exact action_eq_one_of_isSubscribe (hupdate m hm)
        (Nuzzle.isSubscribe_of_count_lt hup hmore)

/-- An update whose action is 257, which the servers take for a subscribe. -/
def updateBeyondByte : RequestUpdateSubscriptionProto :=
  { (default : RequestUpdateSubscriptionProto) with action := 257 }

theorem updateBeyondByte_not_faithful : ¬ ∀ traffic : Set Parsed, Faithful traffic := by
  intro hclaim
  have hfits := (Parsed.same_reencode_iff _).mp
    ((hclaim {.update updateBeyondByte}).same (.update updateBeyondByte) rfl)
  exact absurd (hfits.2 _ rfl) (by decide)

end Firehose.Node
