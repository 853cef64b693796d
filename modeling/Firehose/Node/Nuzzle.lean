import Firehose.Api.Proto
import Firehose.Foundation.Map
import Mathlib.Data.List.Basic

set_option autoImplicit false

/-!
# The nuzzle (`nuzzle.cpp`)

`E` is the type of the nuzzle's connections to engines, `C` that of its
connections from consumers.
-/

namespace Firehose.Node

open Firehose.Api Firehose.Foundation

/-- Number of copies after which a message is delivered: `floor(1 + group_size / 2)`,
where the division is already an integer division. -/
def quorum (groupSize : UInt16) : Nat := 1 + groupSize.toNat / 2

theorem quorum_le {groupSize : UInt16} (h : 0 < groupSize.toNat) :
    quorum groupSize ≤ groupSize.toNat := by
  unfold quorum; omega

theorem quorum_pos (groupSize : UInt16) : 0 < quorum groupSize := by
  unfold quorum; omega

/-- The state of `class Nuzzle`. -/
structure Nuzzle (E C : Type) where
  groupSize : UInt16
  subscriptions : Map UInt64 (List C)
  engineConnections : List E
  messageBuffer : Map Key (List E)

namespace Nuzzle

variable {E C : Type}

/-- `Nuzzle::Nuzzle`. -/
def new (groupSize : UInt16) : Nuzzle E C := ⟨groupSize, .empty, [], .empty⟩

/-- `message_buffer` after `Nuzzle::on_publish_receive` has recorded one more copy. -/
def recordCopy (nuzzle : Nuzzle E C) (connection : E) (key : Key) : Map Key (List E) :=
  let opened :=
    if nuzzle.messageBuffer.count key = 0 then nuzzle.messageBuffer.set key []
    else nuzzle.messageBuffer
  opened.set key (opened.get key ++ [connection])

/-- `received_requests_num`: the number of copies recorded, cut to 16 bits. -/
def receivedRequestsNum (nuzzle : Nuzzle E C) (connection : E) (key : Key) : UInt16 :=
  UInt16.ofNat ((nuzzle.recordCopy connection key).get key).length

/-- Whether `Nuzzle::on_publish_receive` calls `deliver` for the copy it is handed. -/
def Delivers (nuzzle : Nuzzle E C) (connection : E) (key : Key) : Prop :=
  (nuzzle.receivedRequestsNum connection key).toNat = quorum nuzzle.groupSize

instance (nuzzle : Nuzzle E C) (connection : E) (key : Key) :
    Decidable (nuzzle.Delivers connection key) :=
  inferInstanceAs (Decidable (_ = _))

/-- `Nuzzle::on_publish_receive`. -/
def onPublishReceive (nuzzle : Nuzzle E C) (connection : E) (request : RequestPublish) :
    Nuzzle E C × List (C × RequestPublish) :=
  let buffer := nuzzle.recordCopy connection request.key
  ({ nuzzle with
      subscriptions :=
        if nuzzle.Delivers connection request.key then
          nuzzle.subscriptions.touch request.topicId
        else nuzzle.subscriptions
      messageBuffer :=
        if nuzzle.receivedRequestsNum connection request.key = nuzzle.groupSize then
          buffer.erase request.key
        else buffer },
    if nuzzle.Delivers connection request.key then
      (nuzzle.subscriptions.get request.topicId).map fun consumer => (consumer, request)
    else [])

/-- The requests `Nuzzle::on_update_subscription_receive` forwards, one for every engine
connection there is.  Only the topic and the action are assigned; `memory` is what the
local variable holds at each turn of the loop. -/
def forward (nuzzle : Nuzzle E C) (memory : E → RequestUpdateSubscription) (topic : UInt64)
    (action : UInt8) : List (E × RequestUpdateSubscription) :=
  nuzzle.engineConnections.map fun connection =>
    (connection,
      { RequestUpdateSubscription.declared (memory connection) with
        topicId := topic
        action := action })

/-- `Nuzzle::on_update_subscription_receive`.  Erasing what `std::find` did not find is
undefined behaviour, and then there is no result. -/
def onUpdateSubscriptionReceive [DecidableEq C] (nuzzle : Nuzzle E C)
    (memory : E → RequestUpdateSubscription) (connection : C)
    (request : RequestUpdateSubscription) :
    Option (Nuzzle E C × List (E × RequestUpdateSubscription)) :=
  let topic := request.topicId
  if request.isSubscribe then
    let opened :=
      if nuzzle.subscriptions.count topic = 0 ∨
          (nuzzle.subscriptions.get topic).length = 0 then
        nuzzle.subscriptions.set topic []
      else nuzzle.subscriptions
    some ({ nuzzle with
        subscriptions := opened.set topic (opened.get topic ++ [connection]) },
      nuzzle.forward memory topic 1)
  else
    let entries := nuzzle.subscriptions.get topic
    if connection ∈ entries then
      some ({ nuzzle with
          subscriptions := nuzzle.subscriptions.set topic (entries.erase connection) },
        nuzzle.forward memory topic 0)
    else none

/-- `Nuzzle::connect_to_engine`. -/
def connectToEngine (nuzzle : Nuzzle E C) (connection : E) : Nuzzle E C :=
  { nuzzle with engineConnections := nuzzle.engineConnections ++ [connection] }

/-! ## What the handlers do -/

theorem recordCopy_find? (nuzzle : Nuzzle E C) (connection : E) (key key' : Key) :
    (nuzzle.recordCopy connection key).find? key' =
      if key' = key then some (nuzzle.messageBuffer.get key ++ [connection])
      else nuzzle.messageBuffer.find? key' := by
  unfold recordCopy
  by_cases hopen : nuzzle.messageBuffer.count key = 0
  · have hnil := Map.get_of_find?_none (Map.count_eq_zero.mp hopen)
    by_cases hk : key' = key
    · subst hk
      simp [hopen, hnil]
    · simp [hopen, hk, Map.find?_set_ne]
  · by_cases hk : key' = key
    · subst hk
      simp [hopen]
    · simp [hopen, hk, Map.find?_set_ne]

theorem recordCopy_get (nuzzle : Nuzzle E C) (connection : E) (key key' : Key) :
    (nuzzle.recordCopy connection key).get key' =
      if key' = key then nuzzle.messageBuffer.get key ++ [connection]
      else nuzzle.messageBuffer.get key' := by
  rw [Map.get, recordCopy_find?]
  split <;> rfl

/-- Fewer copies are on record, for every key, than a group has engines. -/
def Bounded (nuzzle : Nuzzle E C) : Prop :=
  ∀ key, (nuzzle.messageBuffer.get key).length < nuzzle.groupSize.toNat

/-- Below the group size the 16-bit count is the number of copies. -/
theorem Bounded.receivedRequestsNum_toNat {nuzzle : Nuzzle E C} (h : nuzzle.Bounded)
    (connection : E) (key : Key) :
    (nuzzle.receivedRequestsNum connection key).toNat =
      (nuzzle.messageBuffer.get key).length + 1 := by
  have hlt := h key
  have hsize := nuzzle.groupSize.toNat_lt
  simp only [receivedRequestsNum, recordCopy_get, if_true, List.length_append,
    List.length_singleton]
  exact UInt16.toNat_ofNat_of_lt' (Nat.lt_of_le_of_lt hlt hsize)

theorem Bounded.delivers_iff {nuzzle : Nuzzle E C} (h : nuzzle.Bounded) (connection : E)
    (key : Key) :
    nuzzle.Delivers connection key ↔
      (nuzzle.messageBuffer.get key).length + 1 = quorum nuzzle.groupSize := by
  rw [Delivers, h.receivedRequestsNum_toNat]

/-- The buffer after one more copy: the copy is recorded, and the record of the key is
dropped when it is full. -/
theorem Bounded.messageBuffer_find? {nuzzle : Nuzzle E C} (h : nuzzle.Bounded)
    (connection : E) (request : RequestPublish) (key : Key) :
    (nuzzle.onPublishReceive connection request).1.messageBuffer.find? key =
      if key = request.key then
        if (nuzzle.messageBuffer.get key).length + 1 = nuzzle.groupSize.toNat then none
        else some (nuzzle.messageBuffer.get key ++ [connection])
      else nuzzle.messageBuffer.find? key := by
  have hnum := h.receivedRequestsNum_toNat connection request.key
  have hfull : nuzzle.receivedRequestsNum connection request.key = nuzzle.groupSize ↔
      (nuzzle.messageBuffer.get request.key).length + 1 = nuzzle.groupSize.toNat := by
    rw [← UInt16.toNat_inj, hnum]
  simp only [onPublishReceive, hfull]
  by_cases hk : key = request.key
  · subst hk
    by_cases hlen : (nuzzle.messageBuffer.get request.key).length + 1 =
        nuzzle.groupSize.toNat
    · simp [hlen]
    · simp [hlen, recordCopy_find?]
  · simp only [hk, if_false]
    split
    · rw [Map.find?_erase_ne _ hk, recordCopy_find?, if_neg hk]
    · rw [recordCopy_find?, if_neg hk]

theorem Bounded.messageBuffer_get {nuzzle : Nuzzle E C} (h : nuzzle.Bounded)
    (connection : E) (request : RequestPublish) (key : Key) :
    (nuzzle.onPublishReceive connection request).1.messageBuffer.get key =
      if key = request.key then
        if (nuzzle.messageBuffer.get key).length + 1 = nuzzle.groupSize.toNat then []
        else nuzzle.messageBuffer.get key ++ [connection]
      else nuzzle.messageBuffer.get key := by
  rw [Map.get, h.messageBuffer_find?]
  split
  · split <;> rfl
  · rfl

@[simp] theorem onPublishReceive_subscriptions_get (nuzzle : Nuzzle E C) (connection : E)
    (request : RequestPublish) (topic : UInt64) :
    (nuzzle.onPublishReceive connection request).1.subscriptions.get topic =
      nuzzle.subscriptions.get topic := by
  by_cases h : nuzzle.Delivers connection request.key <;> simp [onPublishReceive, h]

@[simp] theorem onPublishReceive_groupSize (nuzzle : Nuzzle E C) (connection : E)
    (request : RequestPublish) :
    (nuzzle.onPublishReceive connection request).1.groupSize = nuzzle.groupSize := rfl

/-- What is delivered is the request itself. -/
theorem eq_of_mem_onPublishReceive {nuzzle : Nuzzle E C} {connection : E}
    {request : RequestPublish} {o : C × RequestPublish}
    (h : o ∈ (nuzzle.onPublishReceive connection request).2) : o.2 = request := by
  simp only [onPublishReceive] at h
  split at h
  · obtain ⟨consumer, -, rfl⟩ := List.mem_map.mp h
    rfl
  · simp at h

theorem Bounded.onPublishReceive {nuzzle : Nuzzle E C} (h : nuzzle.Bounded) (connection : E)
    (request : RequestPublish) : (nuzzle.onPublishReceive connection request).1.Bounded := by
  intro key
  have hlt := h key
  rw [h.messageBuffer_get, onPublishReceive_groupSize]
  by_cases hk : key = request.key
  · simp only [hk, if_true] at hlt ⊢
    split
    · simp only [List.length_nil]
      omega
    · simp only [List.length_append, List.length_singleton]
      omega
  · simpa [hk] using hlt

/-- Everything an update can do: the connection is added to, or taken once out of, the
entries of the topic, and one request goes to every engine connection. -/
theorem onUpdateSubscriptionReceive_eq_some [DecidableEq C] {nuzzle nuzzle' : Nuzzle E C}
    {memory : E → RequestUpdateSubscription} {connection : C}
    {request : RequestUpdateSubscription} {out : List (E × RequestUpdateSubscription)}
    (h : nuzzle.onUpdateSubscriptionReceive memory connection request = some (nuzzle', out)) :
    nuzzle'.groupSize = nuzzle.groupSize ∧
    nuzzle'.engineConnections = nuzzle.engineConnections ∧
    nuzzle'.messageBuffer = nuzzle.messageBuffer ∧
    out = nuzzle.forward memory request.topicId (if request.isSubscribe then 1 else 0) ∧
    (∀ topic, topic ≠ request.topicId →
      nuzzle'.subscriptions.get topic = nuzzle.subscriptions.get topic) ∧
    (if request.isSubscribe then
      nuzzle'.subscriptions.get request.topicId =
        nuzzle.subscriptions.get request.topicId ++ [connection]
    else
      connection ∈ nuzzle.subscriptions.get request.topicId ∧
      nuzzle'.subscriptions.get request.topicId =
        (nuzzle.subscriptions.get request.topicId).erase connection) := by
  unfold onUpdateSubscriptionReceive at h
  by_cases hsub : request.isSubscribe = true
  · simp only [hsub, if_true, Option.some.injEq, Prod.mk.injEq] at h ⊢
    obtain ⟨rfl, rfl⟩ := h
    refine ⟨rfl, rfl, rfl, rfl, fun topic ht => ?_, ?_⟩
    · split <;> simp [ht, Map.get_set_ne]
    · split
      · rename_i hempty
        have hnil : nuzzle.subscriptions.get request.topicId = [] := by
          rcases hempty with hzero | hzero
          · exact Map.get_of_find?_none (Map.count_eq_zero.mp hzero)
          · exact List.length_eq_zero_iff.mp hzero
        simp [hnil]
      · simp
  · simp only [hsub, Bool.false_eq_true, if_false] at h ⊢
    split at h
    · rename_i hmem
      simp only [Option.some.injEq, Prod.mk.injEq] at h
      obtain ⟨rfl, rfl⟩ := h
      exact ⟨rfl, rfl, rfl, rfl, fun topic ht => by simp [ht, Map.get_set_ne], hmem,
        by simp⟩
    · simp at h

/-- An update is defined exactly when it subscribes or takes back a listed connection. -/
theorem onUpdateSubscriptionReceive_isSome_iff [DecidableEq C] (nuzzle : Nuzzle E C)
    (memory : E → RequestUpdateSubscription) (connection : C)
    (request : RequestUpdateSubscription) :
    (nuzzle.onUpdateSubscriptionReceive memory connection request).isSome = true ↔
      (request.isSubscribe = true ∨
        connection ∈ nuzzle.subscriptions.get request.topicId) := by
  unfold onUpdateSubscriptionReceive
  by_cases hsub : request.isSubscribe = true
  · simp [hsub]
  · by_cases hmem : connection ∈ nuzzle.subscriptions.get request.topicId
    · simp [hsub, hmem]
    · simp [hsub, hmem]

end Nuzzle

end Firehose.Node
