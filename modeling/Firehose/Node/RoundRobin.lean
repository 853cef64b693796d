import Firehose.Foundation.Cyclic
import Firehose.Foundation.Run
import Firehose.Foundation.Words
import Firehose.Node.Client

set_option autoImplicit false

/-!
# The turns of the pumps (`publisher.cpp`)

A publisher connects to pumps and publishes, one call after another.  The index of the
next pump is a signed number of 32 bits, and the list of the pumps is not bounded by it.
-/

namespace Firehose.Node.Publisher

open Firehose.Api Firehose.Foundation

variable {P : Type}

/-! ## The calls -/

/-- The calls of the program that owns a publisher; a connection is a new object. -/
inductive Call (P : Type)
  | connectToPump (connection : P)
  | publish (now : UInt64) (request : RequestPublish)
  deriving DecidableEq

def Call.isPublish : Call P → Bool
  | connectToPump _ => false
  | publish _ _ => true

/-- The place of the next pump, as the subscript operator converts the index. -/
def place (s : Publisher P) : Nat := s.pumpIndex.toInt64.toUInt64.toNat

/-- One call.  A list is no longer than a `size_t` can tell. -/
def next [DecidableEq P] (s : Publisher P) : Call P → Option (Publisher P)
  | .connectToPump connection =>
      if connection ∉ s.pumpConnections ∧ s.pumpConnections.length + 1 < 2 ^ 64 then
        some (s.connectToPump connection)
      else none
  | .publish now request => (s.publish now request).map (·.1)

/-- The pump a call sends to. -/
def target (s : Publisher P) : Call P → Option P
  | .connectToPump _ => none
  | .publish now request => (s.publish now request).map (·.2.1)

/-- The pumps of the publishes, in their order. -/
def targets (trace : List (Publisher P × Call P)) : List P :=
  trace.filterMap fun x => target x.1 x.2

variable {s s' s₁ : Publisher P} {c : Call P} {trace stretch : List (Publisher P × Call P)}

/-- Everything a publish does. -/
theorem publish_eq_some {now : UInt64} {request : RequestPublish}
    {r : Publisher P × P × RequestPublish} (h : s.publish now request = some r) :
    s.pumpConnections[s.place]? = some r.2.1 ∧
      r.1.pumpConnections = s.pumpConnections ∧
      r.1.pumpIndex = ((s.pumpIndex + 1).toInt64.toUInt64 %
        UInt64.ofNat s.pumpConnections.length).toInt64.toInt32 := by
  unfold publish at h
  split at h
  · simp at h
  · rename_i connection hget
    obtain rfl := Option.some.inj h
    exact ⟨hget, rfl, rfl⟩

theorem connect_next [DecidableEq P] {connection : P}
    (h : Steps next s (.connectToPump connection) s') :
    connection ∉ s.pumpConnections ∧ s.pumpConnections.length + 1 < 2 ^ 64 ∧
      s' = s.connectToPump connection := by
  simp only [Steps, next, Option.ite_none_right_eq_some, Option.some.injEq] at h
  exact ⟨h.1.1, h.1.2, h.2.symm⟩

theorem publish_next [DecidableEq P] (hpub : c.isPublish = true) (h : Steps next s c s') :
    ∃ p, target s c = some p ∧ s.pumpConnections[s.place]? = some p ∧
      s'.pumpConnections = s.pumpConnections ∧
      s'.pumpIndex = ((s.pumpIndex + 1).toInt64.toUInt64 %
        UInt64.ofNat s.pumpConnections.length).toInt64.toInt32 := by
  cases c with
  | connectToPump connection => simp [Call.isPublish] at hpub
  | publish now request =>
      obtain ⟨r, hr, rfl⟩ := Option.map_eq_some_iff.mp h
      obtain ⟨hget, hpumps, hindex⟩ := publish_eq_some hr
      exact ⟨r.2.1, by simp [target, hr], hget, hpumps, hindex⟩

/-! ## The index -/

/-- The pumps are different, and the index is the place of one of them, if there is one. -/
structure Placed (s : Publisher P) : Prop where
  nonneg : 0 ≤ s.pumpIndex.toInt
  inside : s.place = 0 ∨ s.place < s.pumpConnections.length
  few : s.pumpConnections.length < 2 ^ 64
  nodup : s.pumpConnections.Nodup

theorem Placed.place_lt (hs : Placed s) (hsome : s.pumpConnections ≠ []) :
    s.place < s.pumpConnections.length := by
  have hpos := List.length_pos_iff.mpr hsome
  rcases hs.inside with hzero | hlt
  · omega
  · exact hlt

theorem placed_new : Placed (new : Publisher P) where
  nonneg := Int.le_refl 0
  inside := Or.inl rfl
  few := by simp [new]
  nodup := List.nodup_nil

/-- No publish is made while the index is the greatest signed number of 32 bits, for which
`pump_index + 1` overflows. -/
def Steady (s : Publisher P) : Call P → Prop
  | .connectToPump _ => True
  | .publish _ _ => s.pumpIndex ≠ .maxValue

instance (s : Publisher P) : (c : Call P) → Decidable (Steady s c)
  | .connectToPump _ => isTrue trivial
  | .publish _ _ => inferInstanceAs (Decidable (_ ≠ _))

theorem Steady.of_publish (h : Steady s c) (hpub : c.isPublish = true) :
    s.pumpIndex ≠ .maxValue := by
  cases c with
  | connectToPump connection => simp [Call.isPublish] at hpub
  | publish now request => exact h

theorem steady_of_place (hplace : s.place + 1 < 2 ^ 31) :
    Steady s c := by
  cases c with
  | connectToPump connection => trivial
  | publish now request =>
      intro hmax
      have hmaxPlace : s.place = 2 ^ 31 - 1 := by
        rw [place, hmax]
        decide
      omega

/-- The index after a publish. -/
theorem place_next [DecidableEq P] (hs : Placed s) (hpub : c.isPublish = true)
    (hsteady : Steady s c) (h : Steps next s c s') :
    0 ≤ s'.pumpIndex.toInt ∧ s'.place = (s.place + 1) % s.pumpConnections.length := by
  obtain ⟨p, -, -, -, hindex⟩ := publish_next hpub h
  have hplace : (s.place : Int) = s.pumpIndex.toInt := toNat_toUInt64_toInt64 hs.nonneg
  have hsucc : (s.pumpIndex + 1).toInt = s.pumpIndex.toInt + 1 :=
    toInt_add_one (hsteady.of_publish hpub)
  have hnonneg := hs.nonneg
  have hbound := (s.pumpIndex + 1).toInt_lt
  have hnext : (s.pumpIndex + 1).toInt64.toUInt64.toNat = s.place + 1 := by
    have hword := toNat_toUInt64_toInt64 (x := s.pumpIndex + 1) (by omega)
    omega
  -- the remainder is no greater than the number it is taken of, which is below 2^31
  have hmod : ((s.pumpIndex + 1).toInt64.toUInt64 %
      UInt64.ofNat s.pumpConnections.length).toNat =
        (s.place + 1) % s.pumpConnections.length := by
    rw [UInt64.toNat_mod, hnext, UInt64.toNat_ofNat', Nat.mod_eq_of_lt hs.few]
  have hle := Nat.mod_le (s.place + 1) s.pumpConnections.length
  have hindex' : s'.pumpIndex.toInt = ((s.place + 1) % s.pumpConnections.length : Nat) := by
    rw [hindex, toInt_toInt32_toInt64 (by omega), hmod]
  have hnonneg' : 0 ≤ s'.pumpIndex.toInt := by omega
  have hplace' : (s'.place : Int) = s'.pumpIndex.toInt := toNat_toUInt64_toInt64 hnonneg'
  exact ⟨hnonneg', by omega⟩

theorem Placed.next [DecidableEq P] (hs : Placed s) (hsteady : Steady s c)
    (h : Steps next s c s') : Placed s' := by
  cases hpub : c.isPublish with
  | true =>
      obtain ⟨p, -, hget, hpumps, -⟩ := publish_next hpub h
      obtain ⟨hnonneg, hplace⟩ := place_next hs hpub hsteady h
      obtain ⟨hlt, -⟩ := List.getElem?_eq_some_iff.mp hget
      constructor
      · exact hnonneg
      · rw [hplace, hpumps]
        exact Or.inr (Nat.mod_lt _ (by omega))
      · rw [hpumps]
        exact hs.few
      · rw [hpumps]
        exact hs.nodup
  | false =>
      cases c with
      | publish now request => simp [Call.isPublish] at hpub
      | connectToPump connection =>
          obtain ⟨hfresh, hfew, rfl⟩ := connect_next h
          have hlen : (s.connectToPump connection).pumpConnections.length =
              s.pumpConnections.length + 1 := List.length_append
          constructor
          · exact hs.nonneg
          · have hsame : (s.connectToPump connection).place = s.place := rfl
            rcases hs.inside with hzero | hlt
            · exact Or.inl (hsame.trans hzero)
            · rw [hsame, hlen]
              exact Or.inr (by omega)
          · rw [hlen]
            exact hfew
          · exact List.nodup_append.mpr ⟨hs.nodup, List.nodup_singleton _, by
              rintro x hx y hy rfl
              exact hfresh (List.mem_singleton.mp hy ▸ hx)⟩

/-! ## The turns -/

/-- The publishes of a stretch without a new connection go round the pumps. -/
structure Turns (s₁ : Publisher P) (stretch : List (Publisher P × Call P)) (s : Publisher P) :
    Prop where
  placed : Placed s
  publishes : ∀ x ∈ stretch, x.2.isPublish = true
  same : ∀ x ∈ stretch, x.1.pumpConnections = s₁.pumpConnections
  pumps_eq : s.pumpConnections = s₁.pumpConnections
  place_eq : s.place % s₁.pumpConnections.length =
    (s₁.place + stretch.length) % s₁.pumpConnections.length
  length_eq : (targets stretch).length = stretch.length
  cyclic : Cyclic s₁.pumpConnections s₁.place (targets stretch)

theorem Turns.snoc [DecidableEq P] (ht : Turns s₁ stretch s) (hpub : c.isPublish = true)
    (hsteady : Steady s c) (h : Steps Publisher.next s c s') :
    Turns s₁ (stretch ++ [(s, c)]) s' := by
  obtain ⟨p, htarget, hget, hpumps, -⟩ := publish_next hpub h
  obtain ⟨-, hplace⟩ := place_next ht.placed hpub hsteady h
  have hlast : targets (stretch ++ [(s, c)]) = targets stretch ++ [p] := by
    simp [targets, htarget]
  rw [ht.pumps_eq] at hget hplace hpumps
  obtain ⟨hlt, -⟩ := List.getElem?_eq_some_iff.mp hget
  constructor
  · exact ht.placed.next hsteady h
  · intro x hx
    rcases List.mem_append.mp hx with hbefore | hnow
    · exact ht.publishes x hbefore
    · obtain rfl := List.mem_singleton.mp hnow
      exact hpub
  · intro x hx
    rcases List.mem_append.mp hx with hbefore | hnow
    · exact ht.same x hbefore
    · obtain rfl := List.mem_singleton.mp hnow
      exact ht.pumps_eq
  · exact hpumps
  · rw [hplace, Nat.mod_mod, List.length_append, List.length_singleton, ← Nat.add_assoc,
      Nat.add_mod, ht.place_eq, ← Nat.add_mod]
  · rw [hlast, List.length_append, List.length_append, ht.length_eq]
    rfl
  · rw [hlast]
    apply ht.cyclic.snoc
    rw [ht.length_eq, ← ht.place_eq, Nat.mod_eq_of_lt hlt]
    exact hget

theorem length_le_next [DecidableEq P] (h : Steps next s c s') :
    s.pumpConnections.length ≤ s'.pumpConnections.length := by
  cases c with
  | connectToPump connection =>
      obtain ⟨-, -, rfl⟩ := connect_next h
      exact (List.sublist_append_left _ _).length_le
  | publish now request =>
      obtain ⟨p, -, -, hpumps, -⟩ := publish_next rfl h
      rw [hpumps]

theorem steady_of_step [DecidableEq P] (hfew : s.pumpConnections.length < 2 ^ 31)
    (h : Steps next s c s') : Steady s c := by
  cases c with
  | connectToPump connection => trivial
  | publish now request =>
      obtain ⟨p, -, hget, -, -⟩ := publish_next rfl h
      obtain ⟨hlt, -⟩ := List.getElem?_eq_some_iff.mp hget
      exact steady_of_place (by omega)

/-- With fewer than 2^31 pumps the index does not overflow. -/
theorem steady_of_few [DecidableEq P] (h : Run (Steps next) new trace s)
    (hfew : s.pumpConnections.length < 2 ^ 31) : ∀ x ∈ trace, Steady x.1 x.2 := by
  have hall : s.pumpConnections.length < 2 ^ 31 →
      Placed s ∧ ∀ x ∈ trace, Steady x.1 x.2 := by
    refine h.history_keeps (I := fun t s => s.pumpConnections.length < 2 ^ 31 →
        Placed s ∧ ∀ x ∈ t, Steady x.1 x.2) (fun _ => ⟨placed_new, by simp⟩) ?_
    intro t s c s' ih hstep hfew'
    have hbefore : s.pumpConnections.length < 2 ^ 31 :=
      Nat.lt_of_le_of_lt (length_le_next hstep) hfew'
    obtain ⟨hs, hsteady⟩ := ih hbefore
    have hnow : Steady s c := steady_of_step hbefore hstep
    refine ⟨hs.next hnow hstep, fun x hx => ?_⟩
    rcases List.mem_append.mp hx with hold | hlast
    · exact hsteady x hold
    · obtain rfl := List.mem_singleton.mp hlast
      exact hnow
  exact (hall hfew).2

theorem publish_total [DecidableEq P] (hplace : s.place < s.pumpConnections.length)
    (now : UInt64) (request : RequestPublish) :
    ∃ s', Steps next s (.publish now request) s' := by
  have hget : s.pumpConnections[s.pumpIndex.toInt64.toUInt64.toNat]? = some _ :=
    List.getElem?_eq_getElem hplace
  simp only [Steps, next, publish, hget]
  exact ⟨_, rfl⟩

/-- A publisher with so many pumps, numbered from 0 on. -/
def connected (size : Nat) : Publisher Nat := ⟨List.range size, 0⟩

end Firehose.Node.Publisher
