import Firehose.Foundation.OrderedMultiset
import Mathlib.Data.List.Induction

set_option autoImplicit false

/-!
# Sliding windows (`util.h`)

`SlidingWindowT` keeps its values twice: in the order they came, and in a tree that is
ordered by value.  The oldest value goes through a `uint64_t` on its way from the one to
the other.
-/

namespace Firehose.Util

open Firehose.Foundation

/-- A type of values that a `uint64_t` can hold. -/
class Word64 (T : Type) where
  toWord : T → UInt64
  ofWord : UInt64 → T
  ofWord_toWord : ∀ value : T, ofWord (toWord value) = value

instance : Word64 Int64 where
  toWord := Int64.toUInt64
  ofWord := UInt64.toInt64
  ofWord_toWord := Int64.toInt64_toUInt64

instance : Word64 UInt64 where
  toWord := id
  ofWord := id
  ofWord_toWord := fun _ => rfl

/-- `class SlidingWindowT`. -/
structure SlidingWindow (T : Type) [LE T] where
  windowSize : UInt32
  q : List T
  oms : OrderedMultiset T

namespace SlidingWindow

variable {T : Type} [LE T]

/-- `SlidingWindowT(unsigned window_size)` -/
def new (windowSize : UInt32) : SlidingWindow T := ⟨windowSize, [], .empty⟩

/-- `get_value`; there is no result beyond the last value. -/
def getValue (w : SlidingWindow T) (rank : Nat) : Option T := w.oms.findByOrder rank

/-- `get_min` -/
def getMin (w : SlidingWindow T) : Option T := w.getValue 0

/-- `get_max`; the size of the list is a `size_t` and the rank an `unsigned`. -/
def getMax (w : SlidingWindow T) : Option T :=
  w.getValue (UInt64.ofNat w.q.length - 1).toUInt32.toNat

section Order

variable [DecidableLE T] [Std.IsLinearOrder T] [Word64 T]

/-- `insert`; there is no result when the erase is undefined. -/
def insert (w : SlidingWindow T) (latest : T) : Option (SlidingWindow T) :=
  let oms := w.oms.insert latest
  match w.q ++ [latest] with
  | [] => none
  | front :: rest =>
      if w.windowSize.toNat < (front :: rest).length then
        let oldest := Word64.toWord front
        (oms.eraseAt (oms.upperBound (Word64.ofWord oldest))).map fun oms =>
          { w with q := rest, oms := oms }
      else some { w with q := front :: rest, oms := oms }

/-- One insert after another. -/
def insertAll (w : SlidingWindow T) (values : List T) : Option (SlidingWindow T) :=
  values.foldlM insert w

/-- The tree holds the values of the list. -/
def Aligned (w : SlidingWindow T) : Prop := w.oms.elems.Perm w.q

omit [DecidableLE T] [Std.IsLinearOrder T] [Word64 T] in
theorem aligned_new (windowSize : UInt32) : Aligned (new windowSize : SlidingWindow T) := .refl _

variable [DecidableEq T]

/-- Everything an insert can do: the value comes in at the end, and above the size of the
window the oldest one goes. -/
theorem Aligned.insert {w : SlidingWindow T} (h : w.Aligned) (latest : T) :
    ∃ w', w.insert latest = some w' ∧ w'.Aligned ∧ w'.windowSize = w.windowSize ∧
      w'.q = if w.windowSize.toNat < w.q.length + 1 then (w.q ++ [latest]).tail
        else w.q ++ [latest] := by
  have hperm : (w.oms.insert latest).elems.Perm (w.q ++ [latest]) :=
    (w.oms.perm_insert latest).trans ((h.cons latest).trans (List.perm_append_singleton _ _).symm)
  have hlength : (w.q ++ [latest]).length = w.q.length + 1 := by simp
  unfold SlidingWindow.insert
  cases hq : w.q ++ [latest] with
  | nil => simp at hq
  | cons front rest =>
      rw [hq] at hperm hlength
      simp only [Word64.ofWord_toWord, hlength, List.tail_cons]
      split
      · -- the oldest value is in the tree, so the erase takes one copy of it
        obtain ⟨oms, herase, helems⟩ :=
          (w.oms.insert latest).exists_eraseAt_upperBound (hperm.mem_iff.mpr List.mem_cons_self)
        refine ⟨⟨w.windowSize, rest, oms⟩, by simp [herase], ?_, rfl, rfl⟩
        have hrest := hperm.erase front
        rw [← helems, List.erase_cons_head] at hrest
        exact hrest
      · exact ⟨⟨w.windowSize, front :: rest, w.oms.insert latest⟩, rfl, hperm, rfl, rfl⟩

/-- What is in a window after an insert was in it or has come in. -/
theorem Aligned.mem_insert {w w' : SlidingWindow T} (h : w.Aligned) {latest : T}
    (hins : w.insert latest = some w') {value : T} (hmem : value ∈ w'.q) :
    value ∈ w.q ∨ value = latest := by
  obtain ⟨w'', hins', -, -, hq⟩ := h.insert latest
  rw [hins, Option.some.injEq] at hins'
  subst hins'
  rw [hq] at hmem
  have hall : value ∈ w.q ++ [latest] := by
    split at hmem
    · exact List.mem_of_mem_tail hmem
    · exact hmem
  simpa using hall

/-- A window of a size other than 0 is not empty after an insert. -/
theorem Aligned.insert_ne_nil {w w' : SlidingWindow T} (h : w.Aligned) {latest : T}
    (hsize : 0 < w.windowSize.toNat) (hins : w.insert latest = some w') : w'.q ≠ [] := by
  obtain ⟨w'', hins', -, -, hq⟩ := h.insert latest
  rw [hins, Option.some.injEq] at hins'
  subst hins'
  rw [hq]
  split
  · -- the window was full, so there was a value before
    rename_i hfull
    cases hold : w.q with
    | nil =>
        rw [hold, List.length_nil] at hfull
        omega
    | cons front rest => simp
  · simp

omit [DecidableLE T] [Std.IsLinearOrder T] [Word64 T] [DecidableEq T] in
/-- `get_min` finds a value of the window. -/
theorem Aligned.exists_getMin {w : SlidingWindow T} (h : w.Aligned) (hne : w.q ≠ []) :
    ∃ value ∈ w.q, w.getMin = some value := by
  unfold getMin getValue OrderedMultiset.findByOrder
  cases helems : w.oms.elems with
  | nil =>
      have hnil : w.q = [] := List.Perm.nil_eq (by simpa [Aligned, helems] using h.symm) |>.symm
      exact absurd hnil hne
  | cons value rest =>
      have hperm : (value :: rest).Perm w.q := helems ▸ h
      exact ⟨value, hperm.mem_iff.mp List.mem_cons_self, rfl⟩

end Order

/-! ## The last values inserted -/

section Last

variable [DecidableLE T] [Std.IsLinearOrder T] [Word64 T] [DecidableEq T]
variable {w : SlidingWindow T} {values : List T}

/-- The window keeps the last of the values that were inserted. -/
structure Keeps (values : List T) (w : SlidingWindow T) : Prop where
  aligned : w.Aligned
  q_eq : w.q = values.drop (values.length - w.windowSize.toNat)

omit [DecidableLE T] [Std.IsLinearOrder T] [Word64 T] [DecidableEq T] in
theorem keeps_new (windowSize : UInt32) : Keeps [] (new windowSize : SlidingWindow T) where
  aligned := aligned_new windowSize
  q_eq := List.drop_nil.symm

omit [DecidableLE T] [Std.IsLinearOrder T] [Word64 T] [DecidableEq T] in
theorem Keeps.length_q (h : Keeps values w) :
    w.q.length = min values.length w.windowSize.toNat := by
  rw [h.q_eq, List.length_drop]
  omega

theorem Keeps.insert (h : Keeps values w) (latest : T) :
    ∃ w', w.insert latest = some w' ∧ w'.windowSize = w.windowSize ∧
      Keeps (values ++ [latest]) w' := by
  obtain ⟨w', hins, haligned, hsize, hq⟩ := h.aligned.insert latest
  refine ⟨w', hins, hsize, haligned, ?_⟩
  have hlen := h.length_q
  have hcut : values.length - w.windowSize.toNat ≤ values.length := Nat.sub_le _ _
  rw [hq, hsize, h.q_eq, ← List.drop_append_of_le_length hcut, List.length_append,
    List.length_singleton, List.length_drop]
  split
  · -- the window is full: one more of the values is left out
    rw [← List.drop_one, List.drop_drop]
    congr 1
    omega
  · congr 1
    omega

/-- No insert is undefined, and the window keeps the last values. -/
theorem exists_insertAll (windowSize : UInt32) (values : List T) :
    ∃ w, (new windowSize).insertAll values = some w ∧ w.windowSize = windowSize ∧
      Keeps values w := by
  induction values using List.reverseRecOn with
  | nil => exact ⟨new windowSize, rfl, rfl, keeps_new windowSize⟩
  | append_singleton values latest ih =>
      obtain ⟨w, hall, hsize, hkeeps⟩ := ih
      obtain ⟨w', hins, hsize', hkeeps'⟩ := hkeeps.insert latest
      refine ⟨w', ?_, hsize'.trans hsize, hkeeps'⟩
      unfold insertAll at hall ⊢
      rw [List.foldlM_append, hall]
      simp [hins]

/-- What a window is when the values have been inserted. -/
structure WindowOf (values : List T) (w : SlidingWindow T) : Prop where
  /-- The list holds the last values, as many as fit, in the order they came. -/
  q_eq : w.q = values.drop (values.length - w.windowSize.toNat)
  length_q : w.q.length = min values.length w.windowSize.toNat
  /-- The tree holds the same values, each as often. -/
  oms_perm : w.oms.elems.Perm w.q
  /-- When the next insert removes a value, `upper_bound` finds the oldest one. -/
  oldest : ∀ latest front, w.q.length = w.windowSize.toNat → w.q.head? = some front →
    (w.oms.insert latest).findByOrder
      ((w.oms.insert latest).upperBound (Word64.ofWord (Word64.toWord front))) = some front
  value : ∀ rank < min values.length w.windowSize.toNat,
    ∃ v, w.getValue rank = some v ∧ orderStatistic w.q rank = some v
  min : ∃ v ∈ w.q, w.getMin = some v ∧ ∀ x ∈ w.q, v ≤ x
  max : ∃ v ∈ w.q, w.getMax = some v ∧ ∀ x ∈ w.q, x ≤ v

theorem Keeps.windowOf (h : Keeps values w) (hsize : 0 < w.windowSize.toNat)
    (hne : values ≠ []) : WindowOf values w := by
  have hlen := h.length_q
  have hpos := List.length_pos_iff.mpr hne
  have hq : w.q ≠ [] := List.ne_nil_of_length_pos (by omega)
  have hbound := w.windowSize.toNat_lt
  constructor
  · exact h.q_eq
  · exact hlen
  · exact h.aligned
  · intro latest front _ hfront
    rw [Word64.ofWord_toWord]
    apply OrderedMultiset.findByOrder_upperBound
    rw [(w.oms.perm_insert latest).mem_iff]
    exact List.mem_cons_of_mem _ (h.aligned.mem_iff.mpr (List.mem_of_head? hfront))
  · intro rank hrank
    have hget := OrderedMultiset.findByOrder_eq h.aligned rank
    have hinside : rank < w.q.length := by omega
    obtain ⟨v, hv⟩ := exists_orderStatistic hinside
    exact ⟨v, hget.trans hv, hv⟩
  · exact OrderedMultiset.findByOrder_zero h.aligned hq
  · have hrank : (UInt64.ofNat w.q.length - 1).toUInt32.toNat = w.q.length - 1 := by
      have hnat : (UInt64.ofNat w.q.length).toNat = w.q.length := by
        rw [UInt64.toNat_ofNat', Nat.mod_eq_of_lt (by omega)]
      have hone : (1 : UInt64).toNat = 1 := rfl
      rw [UInt64.toNat_toUInt32, UInt64.toNat_sub, hnat, hone]
      omega
    unfold getMax getValue
    rw [hrank]
    exact OrderedMultiset.findByOrder_last h.aligned hq

theorem exists_windowOf {windowSize : UInt32} (hsize : 0 < windowSize) (hne : values ≠ []) :
    ∃ w, (new windowSize).insertAll values = some w ∧ w.windowSize = windowSize ∧
      WindowOf values w := by
  obtain ⟨w, hall, hw, hkeeps⟩ := exists_insertAll windowSize values
  have hpos : 0 < w.windowSize.toNat := by
    rw [hw]
    exact UInt32.lt_iff_toNat_lt.mp hsize
  exact ⟨w, hall, hw, hkeeps.windowOf hpos hne⟩

end Last

/-- Windows of either type, of any size but 0, hold the last of the values inserted. -/
theorem windowOf_insertAll (windowSize : UInt32) (hsize : 0 < windowSize) :
    (∀ values : List Int64, values ≠ [] → ∃ w, (new windowSize).insertAll values = some w ∧
      w.windowSize = windowSize ∧ WindowOf values w) ∧
    ∀ values : List UInt64, values ≠ [] → ∃ w, (new windowSize).insertAll values = some w ∧
      w.windowSize = windowSize ∧ WindowOf values w :=
  ⟨fun _ hne => exists_windowOf hsize hne, fun _ hne => exists_windowOf hsize hne⟩

theorem windowOf_insertAll_two :
    (∃ w, (new 2).insertAll [3, -5, 3] = some w ∧ w.windowSize = 2 ∧
      WindowOf ([3, -5, 3] : List Int64) w) ∧
    ∃ w, (new 2).insertAll [7, 7, 2] = some w ∧ w.windowSize = 2 ∧
      WindowOf ([7, 7, 2] : List UInt64) w :=
  ⟨(windowOf_insertAll 2 (by decide)).1 [3, -5, 3] (by decide),
    (windowOf_insertAll 2 (by decide)).2 [7, 7, 2] (by decide)⟩

end SlidingWindow

end Firehose.Util
