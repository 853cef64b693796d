import Firehose.Node.RoundRobin
import Firehose.Node.TopicRange

set_option autoImplicit false

/-!
# Which pump a topic goes to (`publisher.cpp`)

The publisher's `main` goes round the topics of its range, and its publisher goes round the
pumps.  Neither knows of the other, so whether the messages of a topic keep to one pump is
settled by the two numbers.
-/

namespace Firehose.Node

open Firehose.Api Firehose.Foundation

namespace Publishing

variable {P : Type}

/-- The number of topics the loop goes round. -/
def topicCount (lo hi : Int64) : Nat := hi.toUInt64.toNat + 1 - lo.toUInt64.toNat

/-- What `main` sends at a place of its list, and to which pump. -/
structure Turn (pumps : List P) (lo hi : Int64) (j : Nat) (x : P × RequestPublish) : Prop where
  pump : pumps[j % pumps.length]? = some x.1
  topicId : x.2.topicId.toNat = lo.toUInt64.toNat + j % topicCount lo hi
  globalId : x.2.globalId = UInt64.ofNat (j + 1)

/-- A message on the topic has gone to the pump. -/
def Carries (s : Publishing P) (topic : UInt64) (p : P) : Prop :=
  ∃ x ∈ s.sent, x.1 = p ∧ x.2.topicId = topic

/-- After some messages the two indexes stand where the rounds are. -/
structure Scheduled (pumps : List P) (lo hi : Int64) (s : Publishing P) : Prop where
  placed : s.publisher.Placed
  pumps_eq : s.publisher.pumpConnections = pumps
  place_eq : s.publisher.place = s.sent.length % pumps.length
  counter_eq : ∃ i ≤ topicCount lo hi, s.counter.toNat = lo.toUInt64.toNat + i ∧
    i % topicCount lo hi = s.sent.length % topicCount lo hi
  globalId_eq : s.request.globalId = UInt64.ofNat s.sent.length
  sent : ∀ j x, s.sent[j]? = some x → Turn pumps lo hi j x

/-- A publish stamps its request and changes nothing else of it. -/
theorem request_of_publish {publisher : Publisher P} {now : UInt64} {request : RequestPublish}
    {r : Publisher P × P × RequestPublish} (h : publisher.publish now request = some r) :
    r.2.2 = { request with timestamp := now } := by
  unfold Publisher.publish at h
  simp only at h
  split at h
  · simp at h
  · rw [← Option.some.inj h]

theorem connections_foldl (pumps : List P) (publisher : Publisher P) :
    pumps.foldl Publisher.connectToPump publisher =
      { publisher with pumpConnections := publisher.pumpConnections ++ pumps } := by
  induction pumps generalizing publisher with
  | nil => simp
  | cons p pumps ih => simp [ih, Publisher.connectToPump]

variable {lo hi : Int64} {pumps : List P} {memory : RequestPublish}
variable {trace : List (Publishing P × UInt64)} {s s' : Publishing P}

theorem scheduled_start (hnodup : pumps.Nodup) (hfew : pumps.length < 2 ^ 31) :
    Scheduled pumps lo hi (start pumps memory lo) := by
  have hpublisher : (start pumps memory lo).publisher = ⟨pumps, 0⟩ := by
    rw [start, connections_foldl]
    simp [Publisher.new]
  constructor
  · rw [hpublisher]
    exact ⟨Int.le_refl 0, Or.inl rfl, by show pumps.length < 2 ^ 64; omega, hnodup⟩
  · rw [hpublisher]
  · rw [hpublisher, sent_start, List.length_nil, Nat.zero_mod]
    rfl
  · exact ⟨0, Nat.zero_le _, rfl, rfl⟩
  · rfl
  · simp

/-- A message is sent on the topic of the counter, and both rounds move on. -/
theorem Scheduled.publish [DecidableEq P] (hs : Scheduled pumps lo hi s) (hsome : pumps ≠ [])
    (hfew : pumps.length < 2 ^ 31) (hbound : hi.toUInt64.toNat + 1 < 2 ^ 64)
    (hle : s.counter ≤ hi.toUInt64) (now : UInt64) :
    ∃ s', next lo hi s now = some s' ∧ s'.sent.length = s.sent.length + 1 ∧
      Scheduled pumps lo hi s' := by
  obtain ⟨i, hi', hcounter, hturn⟩ := hs.counter_eq
  have hle' : s.counter.toNat ≤ hi.toUInt64.toNat := hle
  have hlt : i < topicCount lo hi := by
    unfold topicCount
    omega
  have hplace := hs.placed.place_lt (by rw [hs.pumps_eq]; exact hsome)
  have hsteady : Publisher.Steady s.publisher (.publish now
      { s.request with topicId := s.counter, globalId := s.request.globalId + 1 }) :=
    Publisher.steady_of_place (by rw [hs.pumps_eq] at hplace; omega)
  obtain ⟨publisher', hstep⟩ := Publisher.publish_total hplace now
    { s.request with topicId := s.counter, globalId := s.request.globalId + 1 }
  obtain ⟨r, hpub, rfl⟩ := Option.map_eq_some_iff.mp hstep
  have hrequest := request_of_publish hpub
  obtain ⟨hget, hpumps, -⟩ := Publisher.publish_eq_some hpub
  obtain ⟨-, hplace'⟩ := Publisher.place_next hs.placed rfl hsteady hstep
  refine ⟨⟨r.1, s.counter + 1, r.2.2, s.sent ++ [r.2]⟩, ?_, by simp, ?_⟩
  · simp [next, hle, hpub]
  have hcounter' : (s.counter + 1).toNat = lo.toUInt64.toNat + (i + 1) := by
    rw [UInt64.toNat_add, hcounter]
    have hone : (1 : UInt64).toNat = 1 := rfl
    rw [hone]
    omega
  constructor
  · exact hs.placed.next hsteady hstep
  · exact hpumps.trans hs.pumps_eq
  · rw [hplace', hs.pumps_eq, hs.place_eq, List.length_append, List.length_singleton,
      Nat.mod_add_mod]
  · refine ⟨i + 1, hlt, hcounter', ?_⟩
    rw [List.length_append, List.length_singleton, Nat.add_mod, hturn, ← Nat.add_mod]
  · rw [hrequest, List.length_append, List.length_singleton, UInt64.ofNat_add]
    exact congrArg (· + 1) hs.globalId_eq
  · intro j x hx
    rcases Nat.lt_or_ge j s.sent.length with hold | hnew
    · rw [List.getElem?_append_left hold] at hx
      exact hs.sent j x hx
    · have hlast : j = s.sent.length := by
        have hj := (List.getElem?_eq_some_iff.mp hx).1
        rw [List.length_append, List.length_singleton] at hj
        omega
      subst hlast
      rw [List.getElem?_concat_length, Option.some.injEq] at hx
      subst hx
      constructor
      · rw [← hs.place_eq, ← hs.pumps_eq]
        exact hget
      · rw [hrequest, ← hturn, Nat.mod_eq_of_lt hlt]
        exact hcounter
      · rw [hrequest, UInt64.ofNat_add]
        exact congrArg (· + 1) hs.globalId_eq

/-- At the end of the range the topics start over, and nothing is sent. -/
theorem Scheduled.restart (hs : Scheduled pumps lo hi s) (hgt : ¬ s.counter ≤ hi.toUInt64)
    (now : UInt64) :
    next lo hi s now = some { s with counter := lo.toUInt64 } ∧
      Scheduled pumps lo hi { s with counter := lo.toUInt64 } := by
  obtain ⟨i, hi', hcounter, hturn⟩ := hs.counter_eq
  have hgt' : hi.toUInt64.toNat < s.counter.toNat := UInt64.not_le.mp hgt
  have hend : i = topicCount lo hi := by
    unfold topicCount at hi' ⊢
    omega
  refine ⟨by simp only [next, hgt, if_false], hs.placed, hs.pumps_eq, hs.place_eq, ?_,
    hs.globalId_eq, hs.sent⟩
  refine ⟨0, Nat.zero_le _, rfl, ?_⟩
  rw [← hturn, hend, Nat.mod_self, Nat.zero_mod]

theorem scheduled_run [DecidableEq P] (hnodup : pumps.Nodup) (hsome : pumps ≠ [])
    (hfew : pumps.length < 2 ^ 31) (hbound : hi.toUInt64.toNat + 1 < 2 ^ 64)
    (h : Run (Steps (next lo hi)) (start pumps memory lo) trace s) :
    Scheduled pumps lo hi s := by
  refine h.keeps (scheduled_start hnodup hfew) ?_
  intro s now s' hs hstep
  rcases Decidable.em (s.counter ≤ hi.toUInt64) with hle | hgt
  · obtain ⟨t, hnext, -, ht⟩ := hs.publish hsome hfew hbound hle now
    rw [Steps, hnext, Option.some.injEq] at hstep
    rw [← hstep]
    exact ht
  · obtain ⟨hnext, ht⟩ := hs.restart hgt now
    rw [Steps, hnext, Option.some.injEq] at hstep
    rw [← hstep]
    exact ht

/-! ## The loop goes on -/

/-- One message more is sent in one step or in two. -/
theorem Scheduled.exists_message [DecidableEq P] (hs : Scheduled pumps lo hi s)
    (hsome : pumps ≠ []) (hfew : pumps.length < 2 ^ 31) (hrange : lo.toUInt64 ≤ hi.toUInt64)
    (hbound : hi.toUInt64.toNat + 1 < 2 ^ 64) :
    ∃ trace s', Run (Steps (next lo hi)) s trace s' ∧ s'.sent.length = s.sent.length + 1 ∧
      Scheduled pumps lo hi s' := by
  rcases Decidable.em (s.counter ≤ hi.toUInt64) with hle | hgt
  · obtain ⟨s', hnext, hlength, hs'⟩ := hs.publish hsome hfew hbound hle 0
    exact ⟨_, s', Run.single hnext, hlength, hs'⟩
  · obtain ⟨hreset, hs₁⟩ := hs.restart hgt 0
    obtain ⟨s', hnext, hlength, hs'⟩ := hs₁.publish hsome hfew hbound hrange 0
    exact ⟨_, s', (Run.single hreset).snoc hnext, hlength, hs'⟩

theorem Scheduled.exists_messages [DecidableEq P] (hs : Scheduled pumps lo hi s)
    (hsome : pumps ≠ []) (hfew : pumps.length < 2 ^ 31) (hrange : lo.toUInt64 ≤ hi.toUInt64)
    (hbound : hi.toUInt64.toNat + 1 < 2 ^ 64) (more : Nat) :
    ∃ trace s', Run (Steps (next lo hi)) s trace s' ∧
      s'.sent.length = s.sent.length + more := by
  induction more generalizing s with
  | zero => exact ⟨[], s, .refl, rfl⟩
  | succ more ih =>
      obtain ⟨trace, s₁, hrun, hone, hs₁⟩ := hs.exists_message hsome hfew hrange hbound
      obtain ⟨trace', s', hrun', hmore⟩ := ih hs₁
      exact ⟨trace ++ trace', s', hrun.trans hrun', by omega⟩

/-! ## Topics and pumps -/

/-- The messages of a topic go to pumps at places that agree with the topic's place modulo
the greatest common divisor of the two rounds, and in the end to all of these. -/
theorem Scheduled.carries_iff (hs : Scheduled pumps lo hi s) (hnodup : pumps.Nodup)
    {i q : Nat} {topic : UInt64} {p : P} (hi' : i < topicCount lo hi)
    (htopic : topic.toNat = lo.toUInt64.toNat + i) (hp : pumps[q]? = some p) :
    (Carries s topic p → i ≡ q [MOD Nat.gcd (topicCount lo hi) pumps.length]) ∧
      (Nat.lcm (topicCount lo hi) pumps.length ≤ s.sent.length →
        i ≡ q [MOD Nat.gcd (topicCount lo hi) pumps.length] → Carries s topic p) := by
  obtain ⟨hq, hget⟩ := List.getElem?_eq_some_iff.mp hp
  constructor
  · rintro ⟨x, hx, rfl, rfl⟩
    obtain ⟨j, hj⟩ := List.mem_iff_getElem?.mp hx
    have hturn := hs.sent j x hj
    refine (exists_together_iff hi' hq).mp ⟨j % Nat.lcm (topicCount lo hi) pumps.length, ?_, ?_, ?_⟩
    · exact Nat.mod_lt _ (Nat.lcm_pos (Nat.zero_lt_of_lt hi') (Nat.zero_lt_of_lt hq))
    · have hplace := hturn.topicId
      rw [Nat.mod_mod_of_dvd _ (Nat.dvd_lcm_left _ _)]
      omega
    · rw [Nat.mod_mod_of_dvd _ (Nat.dvd_lcm_right _ _)]
      have hsame := hturn.pump.trans hp.symm
      exact (List.getElem?_inj (Nat.mod_lt _ (Nat.zero_lt_of_lt hq)) hnodup).mp hsame
  · intro hlong hmod
    obtain ⟨j, hj, hplace, hpump⟩ := (exists_together_iff hi' hq).mpr hmod
    have hlt : j < s.sent.length := by omega
    have hturn := hs.sent j s.sent[j] (List.getElem?_eq_getElem hlt)
    refine ⟨s.sent[j], List.getElem_mem hlt, ?_, ?_⟩
    · have hget' := hturn.pump
      rw [hpump, hp] at hget'
      exact (Option.some.inj hget').symm
    · have hid := hturn.topicId
      rw [hplace, ← htopic] at hid
      exact UInt64.toNat_inj.mp hid

/-- Every topic keeps to one pump exactly when the number of pumps divides the number of
topics. -/
theorem Scheduled.one_pump_iff (hs : Scheduled pumps lo hi s) (hnodup : pumps.Nodup)
    (hsome : pumps ≠ []) (hrange : lo.toUInt64 ≤ hi.toUInt64)
    (hlong : Nat.lcm (topicCount lo hi) pumps.length ≤ s.sent.length) :
    (∀ topic p p', Carries s topic p → Carries s topic p' → p = p') ↔
      pumps.length ∣ topicCount lo hi := by
  have hrange' : lo.toUInt64.toNat ≤ hi.toUInt64.toNat := hrange
  have hpos : 0 < topicCount lo hi := by
    unfold topicCount
    omega
  have hsize := List.length_pos_iff.mpr hsome
  constructor
  · intro hone
    have hle := Nat.le_of_dvd hsize (Nat.gcd_dvd_right (topicCount lo hi) pumps.length)
    rcases Nat.lt_or_eq_of_le hle with hless | heq
    · -- the first topic comes to the first pump and to the one a divisor on
      have htopic : lo.toUInt64.toNat = lo.toUInt64.toNat + 0 := rfl
      have hfirst := (hs.carries_iff hnodup hpos htopic
        (List.getElem?_eq_getElem hsize)).2 hlong rfl
      have hother := (hs.carries_iff hnodup hpos htopic
        (List.getElem?_eq_getElem hless)).2 hlong (by simp [Nat.ModEq])
      have hplace := (List.Nodup.getElem_inj_iff hnodup).mp (hone _ _ _ hfirst hother)
      have hgcd := Nat.gcd_pos_of_pos_left pumps.length hpos
      omega
    · rw [← heq]
      exact Nat.gcd_dvd_left _ _
  · rintro hdvd topic p p' ⟨x, hx, rfl, rfl⟩ ⟨x', hx', rfl, htopic⟩
    obtain ⟨j, hj⟩ := List.mem_iff_getElem?.mp hx
    obtain ⟨j', hj'⟩ := List.mem_iff_getElem?.mp hx'
    have hturn := hs.sent j x hj
    have hturn' := hs.sent j' x' hj'
    have hplace : j % topicCount lo hi = j' % topicCount lo hi := by
      have hid := hturn.topicId
      have hid' := hturn'.topicId
      rw [htopic] at hid'
      omega
    have hpump : j % pumps.length = j' % pumps.length :=
      (show j ≡ j' [MOD topicCount lo hi] from hplace).of_dvd hdvd
    have hget := hturn.pump
    rw [hpump, hturn'.pump] at hget
    exact (Option.some.inj hget).symm

/-- The publisher's program never stops publishing: its j-th message carries the number
j + 1, is on the topic and goes to the pump whose turn it is; a topic comes to just the pumps
at places that agree with its own modulo the greatest common divisor of the numbers of topics
and of pumps, so all topics keep to one pump each exactly when the one number divides the
other. -/
theorem schedule_run [DecidableEq P] (hnodup : pumps.Nodup) (hsome : pumps ≠ [])
    (hfew : pumps.length < 2 ^ 31) (hrange : lo.toUInt64 ≤ hi.toUInt64)
    (hbound : hi.toUInt64.toNat + 1 < 2 ^ 64)
    (h : Run (Steps (next lo hi)) (start pumps memory lo) trace s) :
    (∀ more, ∃ trace' s', Run (Steps (next lo hi)) s trace' s' ∧
      s'.sent.length = s.sent.length + more) ∧
    (∀ j x, s.sent[j]? = some x → Turn pumps lo hi j x) ∧
    (∀ i q topic p, i < topicCount lo hi → topic.toNat = lo.toUInt64.toNat + i →
      pumps[q]? = some p → Carries s topic p →
        i ≡ q [MOD Nat.gcd (topicCount lo hi) pumps.length]) ∧
    (Nat.lcm (topicCount lo hi) pumps.length ≤ s.sent.length →
      (∀ i q topic p, i < topicCount lo hi → topic.toNat = lo.toUInt64.toNat + i →
        pumps[q]? = some p → i ≡ q [MOD Nat.gcd (topicCount lo hi) pumps.length] →
          Carries s topic p) ∧
      ((∀ topic p p', Carries s topic p → Carries s topic p' → p = p') ↔
        pumps.length ∣ topicCount lo hi)) := by
  have hs := scheduled_run hnodup hsome hfew hbound h
  refine ⟨hs.exists_messages hsome hfew hrange hbound, hs.sent, ?_, ?_⟩
  · intro i q topic p hi' htopic hp
    exact (hs.carries_iff hnodup hi' htopic hp).1
  · intro hlong
    refine ⟨?_, hs.one_pump_iff hnodup hsome hrange hlong⟩
    intro i q topic p hi' htopic hp
    exact (hs.carries_iff hnodup hi' htopic hp).2 hlong

/-- Three topics and two pumps: each topic comes to both. -/
theorem schedule_run_threeTopics :
    ∃ (trace : List (Publishing (Fin 2) × UInt64)) (s : Publishing (Fin 2)),
      Run (Steps (next 0 2)) (start [0, 1] default 0) trace s ∧ s.sent.length = 6 ∧
        ∀ i < 3, ∀ p : Fin 2, Carries s (UInt64.ofNat i) p := by
  obtain ⟨trace, s, hrun, hlength⟩ := exists_run_of_execute [10, 11, 12, 13, 14, 15, 16]
    (next 0 2) (start [0, 1] default 0 : Publishing (Fin 2)) (fun _ s => s.sent.length = 6)
    (by decide +kernel)
  refine ⟨trace, s, hrun, hlength, fun i hlt p => ?_⟩
  obtain ⟨-, -, -, hlong⟩ := schedule_run (by decide) (by decide) (by decide) (by decide)
    (by decide) hrun
  obtain ⟨hall, -⟩ := hlong (by rw [hlength]; decide)
  refine hall i p (UInt64.ofNat i) p hlt ?_ ?_ ?_
  · rw [UInt64.toNat_ofNat_of_lt' (Nat.lt_trans hlt (by decide))]
    exact (Nat.zero_add i).symm
  · match p with
    | 0 => rfl
    | 1 => rfl
  · have hone : Nat.gcd (topicCount 0 2) ([0, 1] : List (Fin 2)).length = 1 := by decide
    rw [hone]
    exact Nat.modEq_one

end Publishing

end Firehose.Node
