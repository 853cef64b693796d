import Firehose.Node.Schedule

set_option autoImplicit false

/-!
# The programs (`publisher.cpp`, `consumer.cpp`, `pump.cpp`, `nuzzle.cpp`)

Each program connects to the addresses of its command line, one after the other.  A
publisher then publishes for ever, and a consumer subscribes to its topics; pumps and
nuzzles only serve from then on.  The objects that the programs drive are not part of
them: here are the local variables of each `main`, and the calls it makes next.
-/

namespace Firehose.Node

open Firehose.Api Firehose.Foundation

/-- One turn of the loop over the addresses: what is left after a call for the first. -/
def nextAddress {A : Type} [DecidableEq A] : List A → A → Option (List A)
  | [], _ => none
  | address :: rest, a => if address = a then some rest else none

@[simp] theorem nextAddress_eq_some {A : Type} [DecidableEq A] {left rest : List A} {a : A} :
    nextAddress left a = some rest ↔ left = a :: rest := by
  cases left with
  | nil => simp [nextAddress]
  | cons address left =>
      by_cases ha : address = a
      · simp [nextAddress, ha]
      · simp [nextAddress, ha]

/-! ## The publisher -/

/-- The local variables of the publisher's `main`: the pumps left to connect to, the counter
of the inner loop and the request. -/
structure PublisherMain (P : Type) where
  pumps : List P
  counter : UInt64
  request : RequestPublish

namespace PublisherMain

variable {P : Type}

/-- Before the first call; `memory` is what the request holds before it is set. -/
def start (pumps : List P) (memory : RequestPublish) (lo : Int64) : PublisherMain P where
  pumps := pumps
  counter := lo.toUInt64
  request :=
    { RequestPublish.declared memory with
      globalId := 0
      topicId := 0
      message := List.replicate 1024 120 }

/-- The call of `connect_to_pump`. -/
def connect [DecidableEq P] (main : PublisherMain P) (p : P) : Option (PublisherMain P) :=
  (nextAddress main.pumps p).map fun pumps => { main with pumps := pumps }

/-- What the inner loop publishes next. -/
def nextRequest (main : PublisherMain P) : RequestPublish :=
  { main.request with topicId := main.counter, globalId := main.request.globalId + 1 }

/-- The call of `publish` in the inner loop, which leaves the time `now` in the request. -/
def publish (hi : Int64) (main : PublisherMain P) (now : UInt64) (request : RequestPublish) :
    Option (PublisherMain P) :=
  if main.pumps = [] ∧ main.counter ≤ hi.toUInt64 ∧ request = main.nextRequest then
    some { main with
      counter := main.counter + 1
      request := { request with timestamp := now } }
  else none

/-- The outer loop starts the inner one again. -/
def startOver (lo hi : Int64) (main : PublisherMain P) : Option (PublisherMain P) :=
  if main.pumps = [] ∧ ¬ main.counter ≤ hi.toUInt64 then
    some { main with counter := lo.toUInt64 }
  else none

/-- A publisher and its program are where the loops have got to with the pumps connected so
far, having sent `sent`; the loops wait for the last of the pumps. -/
def Follows (pumps : List P) (memory : RequestPublish) (lo hi : Int64) (publisher : Publisher P)
    (main : PublisherMain P) (sent : List (P × RequestPublish)) : Prop :=
  ∃ connected, connected ++ main.pumps = pumps ∧
    ∃ trace, Run (Steps (Publishing.next lo hi)) (Publishing.start connected memory lo) trace
        ⟨publisher, main.counter, main.request, sent⟩ ∧
      (main.pumps ≠ [] → trace = [])

variable {pumps : List P} {memory : RequestPublish} {lo hi : Int64} {publisher : Publisher P}
  {main main' : PublisherMain P} {sent : List (P × RequestPublish)}

theorem follows_start : Follows pumps memory lo hi .new (start pumps memory lo) [] :=
  ⟨[], rfl, [], .refl, fun _ => rfl⟩

theorem Follows.connect [DecidableEq P] {p : P}
    (h : Follows pumps memory lo hi publisher main sent) (hmain : main.connect p = some main') :
    Follows pumps memory lo hi (publisher.connectToPump p) main' sent := by
  obtain ⟨rest, hrest, rfl⟩ := Option.map_eq_some_iff.mp hmain
  rw [nextAddress_eq_some] at hrest
  obtain ⟨connected, hpumps, trace, hrun, hnone⟩ := h
  have hnil : trace = [] := hnone (by simp [hrest])
  subst hnil
  have hstart := hrun.eq_of_nil
  refine ⟨connected ++ [p], by rw [← hpumps, hrest, List.append_assoc, List.singleton_append],
    [], ?_, fun _ => rfl⟩
  have hnext : Publishing.start (connected ++ [p]) memory lo =
      ⟨publisher.connectToPump p, main.counter, main.request, sent⟩ := by
    simp only [Publishing.start, Publishing.mk.injEq] at hstart
    obtain ⟨rfl, hcounter, hrequest, rfl⟩ := hstart
    simp only [Publishing.start, List.foldl_append, List.foldl_cons, List.foldl_nil, hcounter,
      hrequest]
  rw [hnext]
  exact .refl

theorem Follows.publish [DecidableEq P] {now : UInt64} {request : RequestPublish}
    {r : Publisher P × P × RequestPublish}
    (h : Follows pumps memory lo hi publisher main sent)
    (hmain : main.publish hi now request = some main')
    (hpublish : publisher.publish now request = some r) :
    Follows pumps memory lo hi r.1 main' (sent ++ [r.2]) := by
  obtain ⟨connected, hpumps, trace, hrun, -⟩ := h
  simp only [PublisherMain.publish] at hmain
  split at hmain
  · rename_i hguard
    obtain ⟨hready, hle, rfl⟩ := hguard
    obtain rfl := Option.some.inj hmain
    refine ⟨connected, hpumps, _, hrun.snoc (a := now) ?_, fun hne => absurd hready hne⟩
    have hrequest := Publishing.request_of_publish hpublish
    simp only [Steps, Publishing.next, hle, if_true]
    rw [← hrequest]
    exact Option.map_eq_some_iff.mpr ⟨r, hpublish, rfl⟩
  · simp at hmain

theorem Follows.startOver (h : Follows pumps memory lo hi publisher main sent)
    (hmain : main.startOver lo hi = some main') :
    Follows pumps memory lo hi publisher main' sent := by
  obtain ⟨connected, hpumps, trace, hrun, -⟩ := h
  simp only [PublisherMain.startOver] at hmain
  split at hmain
  · rename_i hguard
    obtain ⟨hready, hgt⟩ := hguard
    obtain rfl := Option.some.inj hmain
    refine ⟨connected, hpumps, _, hrun.snoc (a := 0) ?_, fun hne => absurd hready hne⟩
    simp only [Steps, Publishing.next, hgt, if_false]
  · simp at hmain

/-- What a publisher sends under its program, it sends by turns. -/
theorem Follows.turn [DecidableEq P] (h : Follows pumps memory lo hi publisher main sent)
    (hnodup : pumps.Nodup) (hsome : pumps ≠ []) (hfew : pumps.length < 2 ^ 31)
    (hbound : hi.toUInt64.toNat + 1 < 2 ^ 64) {j : Nat} {x : P × RequestPublish}
    (hx : sent[j]? = some x) : Publishing.Turn pumps lo hi j x := by
  obtain ⟨connected, hpumps, trace, hrun, hnone⟩ := h
  by_cases hready : main.pumps = []
  · rw [hready, List.append_nil] at hpumps
    subst hpumps
    exact (Publishing.scheduled_run hnodup hsome hfew hbound hrun).sent j x hx
  · obtain rfl := hnone hready
    have hsent : sent = [] := congrArg Publishing.sent hrun.eq_of_nil
    simp [hsent] at hx

end PublisherMain

/-! ## The consumer -/

/-- The local variables of the consumer's `main`: the nuzzles left to connect to, the counter
of the loop and the request. -/
structure ConsumerMain (N : Type) where
  nuzzles : List N
  counter : UInt64
  request : RequestUpdateSubscription

namespace ConsumerMain

variable {N : Type}

/-- Before the first call; `memory` is what the request holds before it is set. -/
def start (nuzzles : List N) (memory : RequestUpdateSubscription) (lo : Int64) :
    ConsumerMain N where
  nuzzles := nuzzles
  counter := lo.toUInt64
  request := { RequestUpdateSubscription.declared memory with topicId := 0, action := 1 }

/-- The call of `connect_to_nuzzle`. -/
def connect [DecidableEq N] (main : ConsumerMain N) (n : N) : Option (ConsumerMain N) :=
  (nextAddress main.nuzzles n).map fun nuzzles => { main with nuzzles := nuzzles }

/-- The call of `update_subscribtion` in the loop. -/
def subscribe (hi : Int64) (main : ConsumerMain N) (request : RequestUpdateSubscription) :
    Option (ConsumerMain N) :=
  if main.nuzzles = [] ∧ main.counter ≤ hi.toUInt64 ∧ request = main.request then
    some { main with
      counter := main.counter + 1
      request := { main.request with topicId := main.request.topicId + 1 } }
  else none

end ConsumerMain

end Firehose.Node
