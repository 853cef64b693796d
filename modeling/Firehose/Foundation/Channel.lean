import Mathlib.Logic.Function.Basic
import Mathlib.Data.List.Basic

set_option autoImplicit false

/-!
# First-in first-out channels

A channel carries the messages one party pushes to another party, which takes
them off one at a time from the front.  Besides the messages still in flight the
channel remembers the ones already taken, so that the whole history of both ends
is a function of the current state: `sent` is everything ever pushed, and
`received` is a prefix of it by construction.
-/

namespace Firehose.Foundation

/-- A lossless channel in first-in first-out order. -/
structure Channel (M : Type) where
  /-- Messages already taken, oldest first. -/
  received : List M
  /-- Messages in flight, oldest first. -/
  queue : List M

namespace Channel

variable {M : Type}

/-- The channel nothing has been pushed to. -/
def empty : Channel M := ⟨[], []⟩

/-- Everything ever pushed, oldest first. -/
def sent (ch : Channel M) : List M := ch.received ++ ch.queue

/-- Push messages at the back, in order. -/
def push (ch : Channel M) (ms : List M) : Channel M := ⟨ch.received, ch.queue ++ ms⟩

/-- Take the message at the front. -/
def pop? (ch : Channel M) : Option (M × Channel M) :=
  match ch.queue with
  | [] => none
  | m :: rest => some (m, ⟨ch.received ++ [m], rest⟩)

@[simp] theorem sent_empty : (empty : Channel M).sent = [] := rfl

@[simp] theorem received_empty : (empty : Channel M).received = [] := rfl

@[simp] theorem sent_push (ch : Channel M) (ms : List M) :
    (ch.push ms).sent = ch.sent ++ ms := by
  simp [push, sent]

/-- A pop takes the front of the queue and leaves the history as it was. -/
theorem pop?_eq_some {ch ch' : Channel M} {m : M} (h : ch.pop? = some (m, ch')) :
    ch.queue = m :: ch'.queue ∧ ch'.received = ch.received ++ [m] ∧ ch'.sent = ch.sent := by
  unfold pop? at h
  split at h
  · simp at h
  · rename_i head rest hq
    simp only [Option.some.injEq, Prod.mk.injEq] at h
    obtain ⟨rfl, rfl⟩ := h
    exact ⟨hq, rfl, by simp [sent, hq]⟩

theorem head?_of_pop? {ch ch' : Channel M} {m : M} (h : ch.pop? = some (m, ch')) :
    ch.queue.head? = some m := by
  rw [(pop?_eq_some h).1]; rfl

/-- A channel with a message in flight gives one up. -/
theorem exists_pop? {ch : Channel M} (h : ch.queue ≠ []) : ∃ m ch', ch.pop? = some (m, ch') := by
  unfold pop?
  cases hq : ch.queue with
  | nil => exact absurd hq h
  | cons m rest => exact ⟨m, _, rfl⟩

theorem received_prefix_sent (ch : Channel M) : ch.received <+: ch.sent :=
  List.prefix_append _ _

theorem mem_sent_of_received {ch : Channel M} {m : M} (h : m ∈ ch.received) : m ∈ ch.sent :=
  List.mem_append_left _ h

/-- With nothing in flight both ends have the same history. -/
theorem received_eq_sent {ch : Channel M} (h : ch.queue = []) : ch.received = ch.sent := by
  simp [sent, h]

/-- What a faulty network may turn a channel into: some of the messages sent, in any order
and any number of times, are in flight. -/
def Disturbed (ch ch' : Channel M) : Prop :=
  ch'.received = ch.received ∧ ∀ m ∈ ch'.queue, m ∈ ch.sent

theorem Disturbed.mem_sent {ch ch' : Channel M} (h : ch.Disturbed ch') {m : M}
    (hm : m ∈ ch'.sent) : m ∈ ch.sent := by
  rcases List.mem_append.mp hm with hreceived | hqueue
  · exact mem_sent_of_received (h.1 ▸ hreceived)
  · exact h.2 m hqueue

/-! ## What the messages mean -/

/-- The channel of what the messages mean, as far as they mean something. -/
def filterMap {M' : Type} (f : M → Option M') (ch : Channel M) : Channel M' :=
  ⟨ch.received.filterMap f, ch.queue.filterMap f⟩

theorem filterMap_push {M' : Type} (f : M → Option M') (ch : Channel M) (ms : List M) :
    (ch.push ms).filterMap f = (ch.filterMap f).push (ms.filterMap f) := by
  simp [filterMap, push]

theorem pop?_filterMap {M' : Type} {f : M → Option M'} {ch ch' : Channel M} {x : M} {m : M'}
    (h : ch.pop? = some (x, ch')) (hf : f x = some m) :
    (ch.filterMap f).pop? = some (m, ch'.filterMap f) := by
  obtain ⟨hqueue, hreceived, -⟩ := pop?_eq_some h
  simp [filterMap, pop?, hqueue, hreceived, hf]

/-! ## The channel as a system of its own -/

/-- What can happen to a channel. -/
inductive Event (M : Type)
  | push (m : M)
  | pop

/-- One step of a channel. -/
def next (ch : Channel M) : Event M → Option (Channel M)
  | .push m => some (ch.push [m])
  | .pop => ch.pop?.map Prod.snd

/-! ## Channels of one party -/

section Post

variable {A B : Type} [DecidableEq A] [DecidableEq B]

/-- The messages of an output list that are addressed to one peer. -/
def addressedTo (b : B) (out : List (B × M)) : List M :=
  (out.filter (fun o => decide (o.1 = b))).map (·.2)

/-- Push a party's output list, each message on the channel to its peer. -/
def post (chans : A × B → Channel M) (a : A) (out : List (B × M)) : A × B → Channel M :=
  fun link => if link.1 = a then (chans link).push (addressedTo link.2 out) else chans link

theorem mem_addressedTo {b : B} {out : List (B × M)} {m : M} :
    m ∈ addressedTo b out ↔ (b, m) ∈ out := by
  simp [addressedTo]

/-- What is sent once to each peer of a list reaches a peer as often as it is listed. -/
theorem addressedTo_map (b : B) (peers : List B) (f : B → M) :
    addressedTo b (peers.map fun p => (p, f p)) = List.replicate (peers.count b) (f b) := by
  induction peers with
  | nil => rfl
  | cons p rest ih =>
      unfold addressedTo at ih ⊢
      by_cases h : p = b
      · subst h
        simp [ih, List.replicate_succ]
      · simp [h, ih]

@[simp] theorem received_post (chans : A × B → Channel M) (a : A) (out : List (B × M))
    (link : A × B) : (post chans a out link).received = (chans link).received := by
  unfold post
  split <;> rfl

theorem sent_post_self (chans : A × B → Channel M) (a : A) (b : B) (out : List (B × M)) :
    (post chans a out (a, b)).sent = (chans (a, b)).sent ++ addressedTo b out := by
  simp [post]

theorem sent_post_ne (chans : A × B → Channel M) {a a' : A} (b : B) (out : List (B × M))
    (h : a' ≠ a) : (post chans a out (a', b)).sent = (chans (a', b)).sent := by
  simp [post, h]

/-- A message on a channel was there before or has just been pushed. -/
theorem mem_sent_post {chans : A × B → Channel M} {a a' : A} {b : B} {out : List (B × M)}
    {m : M} (h : m ∈ (post chans a out (a', b)).sent) :
    m ∈ (chans (a', b)).sent ∨ (b, m) ∈ out := by
  by_cases ha : a' = a
  · subst ha
    rw [sent_post_self, List.mem_append] at h
    exact h.imp_right mem_addressedTo.mp
  · rw [sent_post_ne chans b out ha] at h
    exact Or.inl h

end Post

/-! ## Taking a message off one of several channels -/

section Take

variable {L : Type} [DecidableEq L]

theorem sent_update_pop? {chans : L → Channel M} {l : L} {m : M} {ch : Channel M}
    (h : (chans l).pop? = some (m, ch)) (l' : L) :
    (Function.update chans l ch l').sent = (chans l').sent := by
  by_cases hl : l' = l
  · subst hl; simp [(pop?_eq_some h).2.2]
  · simp [hl]

theorem received_update_self {chans : L → Channel M} {l : L} {m : M} {ch : Channel M}
    (h : (chans l).pop? = some (m, ch)) :
    (Function.update chans l ch l).received = (chans l).received ++ [m] := by
  simp [(pop?_eq_some h).2.1]

theorem received_update_ne (chans : L → Channel M) {l l' : L} (ch : Channel M) (h : l' ≠ l) :
    (Function.update chans l ch l').received = (chans l').received := by
  simp [h]

/-- A party that takes a message off one of its channels has received it from that peer. -/
theorem received_update_pop? {A : Type} [DecidableEq A] {chans : L → Channel M} {link : A → L}
    {a : A} {m : M} {ch : Channel M} (hlink : Function.Injective link)
    (h : (chans (link a)).pop? = some (m, ch)) :
    (fun a' => (Function.update chans (link a) ch (link a')).received) =
      Function.update (fun a' => (chans (link a')).received) a
        ((chans (link a)).received ++ [m]) := by
  funext a'
  by_cases ha : a' = a
  · subst ha
    rw [received_update_self h, Function.update_self]
  · rw [received_update_ne _ _ (hlink.ne ha), Function.update_of_ne ha]

end Take

end Channel

end Firehose.Foundation
