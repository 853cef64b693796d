import Firehose.Foundation.Loop
import Firehose.Foundation.Words
import Firehose.Node.Client

set_option autoImplicit false

/-!
# The topics of a range (`consumer.cpp`, `publisher.cpp`)

Both programs take a range `lo:hi` and loop over an unsigned counter, which the signed
`hi` is converted for.  The publisher publishes on the topic of the counter; the consumer
subscribes to the topics from 0 on, one for each turn.
-/

namespace Firehose.Node

open Firehose.Api Firehose.Foundation

/-! ## The consumer -/

section ConsumerProgram

variable {N : Type}

/-- The consumer after it has been connected to its nuzzles, the last of which is `n`. -/
def connectedConsumer (others : List N) (n : N) : Consumer N :=
  (others.foldl Consumer.connectToNuzzle Consumer.new).connectToNuzzle n

/-- The request of `main` and what has been sent. -/
structure Subscribing (N : Type) where
  request : RequestUpdateSubscription
  sent : List (N × RequestUpdateSubscription)

namespace Subscribing

/-- Before the loop; `memory` is what the local variable holds before. -/
def start (memory : RequestUpdateSubscription) : Subscribing N :=
  ⟨{ RequestUpdateSubscription.declared memory with topicId := 0, action := 1 }, []⟩

/-- The loop of the consumer's `main`. -/
def loop (consumer : Consumer N) (hi : Int64) : WordLoop (Subscribing N) where
  bound := hi.toUInt64
  body := fun _ s =>
    (consumer.updateSubscribtion s.request).map fun sent =>
      ⟨{ s.request with topicId := s.request.topicId + 1 }, s.sent ++ [sent]⟩

/-- The topics of the requests sent. -/
def topics (s : Subscribing N) : List UInt64 := s.sent.map (·.2.topicId)

/-- After some turns the topics from 0 on have been subscribed to. -/
structure Counted (n : N) (turns : Nat) (s : Subscribing N) : Prop where
  action_eq : s.request.action = 1
  topicId_eq : s.request.topicId = UInt64.ofNat turns
  topics_eq : s.topics = (List.range turns).map UInt64.ofNat
  subscribes : ∀ r ∈ s.sent, r.1 = n ∧ r.2.isSubscribe = true

theorem counted_start (n : N) (memory : RequestUpdateSubscription) :
    Counted n 0 (start memory) where
  action_eq := rfl
  topicId_eq := rfl
  topics_eq := rfl
  subscribes := by simp [start]

/-- A turn of the connected consumer never fails. -/
theorem body_eq (others : List N) (n : N) (hi : Int64) (i : UInt64) (s : Subscribing N) :
    (loop (connectedConsumer others n) hi).body i s =
      some ⟨{ s.request with topicId := s.request.topicId + 1 }, s.sent ++ [(n, s.request)]⟩ :=
  rfl

theorem Counted.turn {n : N} {turns : Nat} {s : Subscribing N} (h : Counted n turns s) :
    Counted n (turns + 1)
      ⟨{ s.request with topicId := s.request.topicId + 1 }, s.sent ++ [(n, s.request)]⟩ where
  action_eq := h.action_eq
  topicId_eq := by
    rw [h.topicId_eq, UInt64.ofNat_add]
    rfl
  topics_eq := by
    have htopics := h.topics_eq
    unfold topics at htopics ⊢
    simp [List.range_succ, htopics, h.topicId_eq]
  subscribes := by
    intro r hr
    rcases List.mem_append.mp hr with hold | hnew
    · exact h.subscribes r hold
    · rw [List.mem_singleton.mp hnew]
      exact ⟨rfl, by simp [RequestUpdateSubscription.isSubscribe, h.action_eq]⟩

variable {others : List N} {n : N} {lo hi : Int64} {memory : RequestUpdateSubscription}
variable {trace : List ((UInt64 × Subscribing N) × Unit)} {r : UInt64 × Subscribing N}

theorem counted_run
    (h : Run (Steps (loop (connectedConsumer others n) hi).next) (lo.toUInt64, start memory)
      trace r) : Counted n trace.length r.2 := by
  refine h.history_keeps (I := fun trace r => Counted n trace.length r.2)
    (counted_start n memory) ?_
  intro t r a r' hinv hstep
  obtain ⟨-, -, hbody⟩ := WordLoop.next_eq_some hstep
  rw [body_eq, Option.some.injEq] at hbody
  rw [← hbody, List.length_append]
  exact hinv.turn

end Subscribing

end ConsumerProgram

/-! ## The publisher -/

/-- The variables of the publisher's `main` in its loops, and what has been sent. -/
structure Publishing (P : Type) where
  publisher : Publisher P
  counter : UInt64
  request : RequestPublish
  sent : List (P × RequestPublish)

namespace Publishing

variable {P : Type}

/-- Before the loops; `memory` is what the local variable holds before. -/
def start (pumps : List P) (memory : RequestPublish) (lo : Int64) : Publishing P where
  publisher := pumps.foldl Publisher.connectToPump .new
  counter := lo.toUInt64
  request :=
    { RequestPublish.declared memory with
      globalId := 0
      topicId := 0
      message := List.replicate 1024 120 }
  sent := []

/-- One turn of the inner loop at the time `now`, or a new start of it. -/
def next (lo hi : Int64) (s : Publishing P) (now : UInt64) : Option (Publishing P) :=
  if s.counter ≤ hi.toUInt64 then
    (s.publisher.publish now
      { s.request with topicId := s.counter, globalId := s.request.globalId + 1 }).map
        fun r => ⟨r.1, s.counter + 1, r.2.2, s.sent ++ [r.2]⟩
  else some { s with counter := lo.toUInt64 }

@[simp] theorem sent_start (pumps : List P) (memory : RequestPublish) (lo : Int64) :
    (start pumps memory lo).sent = [] := rfl

/-- The publisher publishes on the topic of its counter. -/
theorem topicId_of_publish {publisher : Publisher P} {now : UInt64} {request : RequestPublish}
    {r : Publisher P × P × RequestPublish} (h : publisher.publish now request = some r) :
    r.2.2.topicId = request.topicId := by
  unfold Publisher.publish at h
  simp only at h
  split at h
  · simp at h
  · rw [← Option.some.inj h]

variable {lo hi : Int64} {pumps : List P} {memory : RequestPublish}
variable {trace : List (Publishing P × UInt64)} {s : Publishing P}

/-- No message is on a topic above the bound. -/
theorem topicId_le (h : Run (Steps (next lo hi)) (start pumps memory lo) trace s) :
    ∀ r ∈ s.sent, r.2.topicId ≤ hi.toUInt64 := by
  refine h.keeps (I := fun s => ∀ r ∈ s.sent, r.2.topicId ≤ hi.toUInt64) (by simp) ?_
  intro s now s' hinv hstep
  simp only [Steps, next] at hstep
  split at hstep
  · rename_i hle
    obtain ⟨r, hpub, rfl⟩ := Option.map_eq_some_iff.mp hstep
    intro x hx
    rcases List.mem_append.mp hx with hold | hnew
    · exact hinv x hold
    · rw [List.mem_singleton.mp hnew, topicId_of_publish hpub]
      exact hle
  · rw [← Option.some.inj hstep]
    exact hinv

/-- Over an empty range nothing is sent. -/
theorem sent_eq_nil (hempty : hi.toUInt64 < lo.toUInt64)
    (h : Run (Steps (next lo hi)) (start pumps memory lo) trace s) : s.sent = [] := by
  have hinv : s.counter = lo.toUInt64 ∧ s.sent = [] := by
    refine h.keeps (I := fun s => s.counter = lo.toUInt64 ∧ s.sent = []) ⟨rfl, rfl⟩ ?_
    rintro s now s' ⟨hcounter, hsent⟩ hstep
    have hnot : ¬ s.counter ≤ hi.toUInt64 := by
      rw [hcounter]
      exact UInt64.not_le.mpr hempty
    simp only [Steps, next, hnot, if_false, Option.some.injEq] at hstep
    subst hstep
    exact ⟨rfl, hsent⟩
  exact hinv.2

end Publishing

/-! ## The range -/

/-- The topic identifiers from `lo` to `hi`, as 64-bit integers. -/
def InRange (lo hi : Int64) (topic : UInt64) : Prop :=
  lo.toInt ≤ topic.toInt64.toInt ∧ topic.toInt64.toInt ≤ hi.toInt

instance (lo hi : Int64) (topic : UInt64) : Decidable (InRange lo hi topic) :=
  inferInstanceAs (Decidable (_ ∧ _))

/-- The consumer comes to the end of its loop, has then sent one subscribe request for each
topic of the range and no other, and is subscribed to whatever the publisher publishes when
it runs with the same range. -/
def MeansRange {N : Type} (others : List N) (n : N) (memory : RequestUpdateSubscription)
    (lo hi : Int64) : Prop :=
  ∃ trace r, Run (Steps (Subscribing.loop (connectedConsumer others n) hi).next)
      (lo.toUInt64, Subscribing.start memory) trace r ∧
    (Subscribing.loop (connectedConsumer others n) hi).Ended r ∧
    (∀ x ∈ r.2.sent, x.1 = n ∧ x.2.isSubscribe = true) ∧
    (∀ topic, r.2.topics.count topic = if InRange lo hi topic then 1 else 0) ∧
    ∀ (P : Type) (pumps : List P) (memory' : RequestPublish)
      (trace' : List (Publishing P × UInt64)) (s : Publishing P),
      Run (Steps (Publishing.next lo hi)) (Publishing.start pumps memory' lo) trace' s →
      ∀ x ∈ s.sent, x.2.topicId ∈ r.2.topics

/-- Counting from 0 meets each of the first words once. -/
theorem count_map_range {turns : Nat} (hturns : turns ≤ 2 ^ 64) (topic : UInt64) :
    ((List.range turns).map UInt64.ofNat).count topic =
      if topic.toNat < turns then 1 else 0 := by
  induction turns with
  | zero => simp
  | succ turns ih =>
      have hlt : turns < 2 ^ 64 := hturns
      have heq : UInt64.ofNat turns = topic ↔ turns = topic.toNat := by
        rw [← UInt64.toNat_inj, UInt64.toNat_ofNat_of_lt' hlt]
      rw [List.range_succ, List.map_append, List.count_append, ih (by omega), List.map_singleton,
        List.count_singleton]
      simp only [beq_iff_eq, heq]
      split <;> split <;> split <;> omega

section Range

variable {N : Type} {others : List N} {n : N} {memory : RequestUpdateSubscription}
variable {lo hi : Int64} {trace : List ((UInt64 × Subscribing N) × Unit)}
variable {r : UInt64 × Subscribing N}

/-- At the end of its loop the consumer has subscribed to the topics from 0 on, one for each
counter between the two words. -/
theorem count_topics_of_ended
    (h : Run (Steps (Subscribing.loop (connectedConsumer others n) hi).next)
      (lo.toUInt64, Subscribing.start memory) trace r)
    (hend : (Subscribing.loop (connectedConsumer others n) hi).Ended r)
    (hbound : hi.toUInt64.toNat + 1 < 2 ^ 64) (topic : UInt64) :
    r.2.topics.count topic =
      if topic.toNat < hi.toUInt64.toNat + 1 - lo.toUInt64.toNat then 1 else 0 := by
  have hlength : trace.length = hi.toUInt64.toNat + 1 - lo.toUInt64.toNat :=
    WordLoop.length_of_ended hbound h hend
  rw [(Subscribing.counted_run h).topics_eq, hlength]
  exact count_map_range (by omega) topic

/-- Where a range is meant, the loop comes to its end and makes its turns for the topics of
the range. -/
theorem turns_of_meansRange (h : MeansRange others n memory lo hi) :
    hi.toUInt64.toNat + 1 < 2 ^ 64 ∧ ∀ topic : UInt64,
      topic.toNat < hi.toUInt64.toNat + 1 - lo.toUInt64.toNat ↔ InRange lo hi topic := by
  obtain ⟨trace, r, hrun, hend, -, honce, -⟩ := h
  have hmax := hi.toUInt64.toNat_lt
  have hbound : hi.toUInt64.toNat + 1 < 2 ^ 64 := by
    by_contra hnot
    exact WordLoop.not_ended_of_bound (l := Subscribing.loop (connectedConsumer others n) hi)
      (by show hi.toUInt64.toNat + 1 = 2 ^ 64; omega) r hend
  refine ⟨hbound, fun topic => ?_⟩
  have hcount := count_topics_of_ended hrun hend hbound topic
  rw [honce] at hcount
  constructor
  · intro hlt
    by_contra hout
    rw [if_neg hout, if_pos hlt] at hcount
    exact absurd hcount (by decide)
  · intro hin
    by_contra hout
    rw [if_pos hin, if_neg hout] at hcount
    exact absurd hcount (by decide)

/-- The turns are those of a range from 0, or of an empty one with no sign change. -/
theorem bounds_of_turns
    (hmem : ∀ topic : UInt64,
      topic.toNat < hi.toUInt64.toNat + 1 - lo.toUInt64.toNat ↔ InRange lo hi topic) :
    (lo.toInt = 0 ∧ 0 ≤ hi.toInt) ∨
      (hi.toInt < lo.toInt ∧ ¬ (hi.toInt < 0 ∧ 0 ≤ lo.toInt)) := by
  have hlo := toNat_toUInt64 lo
  have hhi := toNat_toUInt64 hi
  have hlole := Int64.le_toInt lo
  have hhilt := Int64.toInt_lt hi
  have hlolt := Int64.toInt_lt lo
  have hhile := Int64.le_toInt hi
  have hzero : 0 < hi.toUInt64.toNat + 1 - lo.toUInt64.toNat → lo.toInt ≤ 0 ∧ 0 ≤ hi.toInt :=
    (hmem 0).mp
  rcases Int.lt_or_le hi.toInt lo.toInt with hempty | hfull
  · -- no topic is in the range, so the loop makes no turn
    refine Or.inr ⟨hempty, fun hsigns => ?_⟩
    rw [if_pos hsigns.2] at hlo
    rw [if_neg (by omega)] at hhi
    have hboth := hzero (by omega)
    omega
  · have hfirst : InRange lo hi lo.toUInt64 := by
      unfold InRange
      rw [Int64.toInt64_toUInt64]
      exact ⟨Int.le_refl _, hfull⟩
    have hturn := (hmem lo.toUInt64).mpr hfirst
    have hboth := hzero (by omega)
    rw [if_pos hboth.2] at hhi
    refine Or.inl ⟨?_, hboth.2⟩
    split at hlo <;> omega

theorem turns_of_bounds
    (hcond : (lo.toInt = 0 ∧ 0 ≤ hi.toInt) ∨
      (hi.toInt < lo.toInt ∧ ¬ (hi.toInt < 0 ∧ 0 ≤ lo.toInt))) :
    hi.toUInt64.toNat + 1 < 2 ^ 64 ∧ ∀ topic : UInt64,
      topic.toNat < hi.toUInt64.toNat + 1 - lo.toUInt64.toNat ↔ InRange lo hi topic := by
  have hlo := toNat_toUInt64 lo
  have hhi := toNat_toUInt64 hi
  have hlole := Int64.le_toInt lo
  have hhilt := Int64.toInt_lt hi
  constructor
  · split at hhi <;> omega
  · intro topic
    have htopic := toInt_toInt64 topic
    have htopiclt := topic.toNat_lt
    unfold InRange
    split at hlo <;> split at hhi <;> split at htopic <;> omega

/-- What the publisher publishes on is then one of the topics of the turns. -/
theorem published_of_bounds {P : Type} {pumps : List P} {memory' : RequestPublish}
    {trace' : List (Publishing P × UInt64)} {s : Publishing P}
    (hcond : (lo.toInt = 0 ∧ 0 ≤ hi.toInt) ∨
      (hi.toInt < lo.toInt ∧ ¬ (hi.toInt < 0 ∧ 0 ≤ lo.toInt)))
    (h : Run (Steps (Publishing.next lo hi)) (Publishing.start pumps memory' lo) trace' s) :
    ∀ x ∈ s.sent, x.2.topicId.toNat < hi.toUInt64.toNat + 1 - lo.toUInt64.toNat := by
  intro x hx
  have hlo := toNat_toUInt64 lo
  have hhi := toNat_toUInt64 hi
  rcases hcond with ⟨hzero, hpos⟩ | ⟨hempty, hsigns⟩
  · have hle := UInt64.le_iff_toNat_le.mp (Publishing.topicId_le h x hx)
    rw [if_pos (by omega)] at hlo
    omega
  · have hlole := Int64.le_toInt lo
    have hhilt := Int64.toInt_lt hi
    have hless : hi.toUInt64 < lo.toUInt64 := by
      rw [UInt64.lt_iff_toNat_lt]
      split at hlo <;> split at hhi <;> omega
    rw [Publishing.sent_eq_nil hless h] at hx
    simp at hx

/-- The publisher and the consumer mean the same topics by a range, all of it and nothing
else, exactly when the range starts at 0, or is empty and its bounds have the same sign. -/
theorem meansRange_iff :
    MeansRange others n memory lo hi ↔
      (lo.toInt = 0 ∧ 0 ≤ hi.toInt) ∨
        (hi.toInt < lo.toInt ∧ ¬ (hi.toInt < 0 ∧ 0 ≤ lo.toInt)) := by
  refine ⟨fun h => bounds_of_turns (turns_of_meansRange h).2, fun hcond => ?_⟩
  obtain ⟨hbound, hmem⟩ := turns_of_bounds hcond
  obtain ⟨trace, r, hrun, hend⟩ :=
    WordLoop.exists_ended (l := Subscribing.loop (connectedConsumer others n) hi)
      (I := fun _ => True) hbound (fun i s _ => ⟨_, Subscribing.body_eq others n hi i s, trivial⟩)
      lo.toUInt64 (Subscribing.start memory) trivial
  have hcount := count_topics_of_ended hrun hend hbound
  refine ⟨trace, r, hrun, hend, (Subscribing.counted_run hrun).subscribes, fun topic => ?_, ?_⟩
  · rw [hcount]
    simp only [hmem]
  · intro P pumps memory' trace' s hpub x hx
    apply List.count_pos_iff.mp
    rw [hcount, if_pos (published_of_bounds hcond hpub x hx)]
    exact Nat.one_pos

end Range

/-- Run with `5:7` the consumer subscribes to the topics 0, 1 and 2. -/
theorem fromFive_not_meansRange :
    ¬ ∀ lo hi : Int64, MeansRange (N := Fin 1) [] 0 default lo hi := by
  intro hclaim
  have hbounds := bounds_of_turns (turns_of_meansRange (hclaim 5 7)).2
  exact absurd hbounds (by decide)

end Firehose.Node
