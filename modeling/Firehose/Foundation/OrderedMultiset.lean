import Mathlib.Data.List.Sort

set_option autoImplicit false

/-!
# Ordered multisets

An order-statistics tree whose comparison is `≤`, seen as the sorted list of its elements.
With this comparison equal elements are kept, and `upper_bound` finds the first element
that is not below the one asked for.
-/

namespace Firehose.Foundation

/-- The value of a rank among some values, the least one having rank 0. -/
def orderStatistic {α : Type} [LE α] [DecidableLE α] (l : List α) (rank : Nat) : Option α :=
  (l.mergeSort fun a b => decide (a ≤ b))[rank]?

theorem exists_orderStatistic {α : Type} [LE α] [DecidableLE α] {l : List α} {rank : Nat}
    (h : rank < l.length) : ∃ a, orderStatistic l rank = some a := by
  have hlen : (l.mergeSort fun a b => decide (a ≤ b)).length = l.length :=
    List.length_mergeSort l
  exact ⟨_, List.getElem?_eq_getElem (by rwa [hlen])⟩

/-- The elements of a tree, in order. -/
structure OrderedMultiset (α : Type) [LE α] where
  elems : List α
  sorted : elems.Pairwise (· ≤ ·)

namespace OrderedMultiset

variable {α : Type} [LE α]

def empty : OrderedMultiset α := ⟨[], .nil⟩

/-- The element at a position that an iterator refers to. -/
def findByOrder (s : OrderedMultiset α) (rank : Nat) : Option α := s.elems[rank]?

/-- Erase at an iterator; there is no result at the end of the tree. -/
def eraseAt (s : OrderedMultiset α) (i : Nat) : Option (OrderedMultiset α) :=
  if i < s.elems.length then
    some ⟨s.elems.eraseIdx i, s.sorted.sublist (List.eraseIdx_sublist s.elems i)⟩
  else none

section Order

variable [DecidableLE α] [Std.IsLinearOrder α]

instance : IsTrans α (· ≤ ·) := ⟨Std.IsPreorder.le_trans⟩

def insert (s : OrderedMultiset α) (a : α) : OrderedMultiset α :=
  ⟨s.elems.orderedInsert (· ≤ ·) a, s.sorted.orderedInsert a s.elems⟩

/-- The position of the first element that is not below `a`, the end if there is none. -/
def upperBound (s : OrderedMultiset α) (a : α) : Nat := s.elems.findIdx fun e => decide (a ≤ e)

theorem perm_insert (s : OrderedMultiset α) (a : α) :
    (s.insert a).elems.Perm (a :: s.elems) := List.perm_orderedInsert _ a s.elems

variable [DecidableEq α]

/-- In a sorted list the first element that is not below an element is the first that is
equal to it. -/
theorem findIdx_eq_idxOf {l : List α} (hl : l.Pairwise (· ≤ ·)) {a : α} (ha : a ∈ l) :
    l.findIdx (fun e => decide (a ≤ e)) = l.idxOf a := by
  induction l with
  | nil => simp at ha
  | cons b l ih =>
      obtain ⟨hhead, htail⟩ := List.pairwise_cons.mp hl
      rw [List.findIdx_cons, List.idxOf_cons]
      by_cases hab : a ≤ b
      · have heq : b = a := by
          rcases List.mem_cons.mp ha with rfl | hmem
          · rfl
          · exact Std.IsPartialOrder.le_antisymm b a (hhead a hmem) hab
        simp [heq]
      · have hne : ¬ b = a := by
          rintro rfl
          exact hab (Std.IsPreorder.le_refl b)
        have hmem : a ∈ l := (List.mem_cons.mp ha).resolve_left (Ne.symm hne)
        simp [hab, beq_false_of_ne hne, ih htail hmem]

/-- What `upper_bound` finds for an element is equal to it. -/
theorem findByOrder_upperBound (s : OrderedMultiset α) {a : α} (ha : a ∈ s.elems) :
    s.findByOrder (s.upperBound a) = some a := by
  have hlt := List.idxOf_lt_length_of_mem ha
  rw [findByOrder, upperBound, findIdx_eq_idxOf s.sorted ha, List.getElem?_eq_getElem hlt,
    List.getElem_idxOf hlt]

/-- Erasing what `upper_bound` finds for an element takes one copy of it away. -/
theorem exists_eraseAt_upperBound (s : OrderedMultiset α) {a : α} (ha : a ∈ s.elems) :
    ∃ s', s.eraseAt (s.upperBound a) = some s' ∧ s'.elems = s.elems.erase a := by
  have hindex : s.upperBound a = s.elems.idxOf a := findIdx_eq_idxOf s.sorted ha
  unfold eraseAt
  rw [hindex, if_pos (List.idxOf_lt_length_of_mem ha)]
  exact ⟨_, rfl, List.eraseIdx_idxOf_eq_erase a s.elems⟩

/-! ## Ranks -/

omit [DecidableEq α]

/-- The element of a rank is the value of that rank among the elements. -/
theorem findByOrder_eq {s : OrderedMultiset α} {l : List α} (h : s.elems.Perm l) (rank : Nat) :
    s.findByOrder rank = orderStatistic l rank := by
  have hsorted : (l.mergeSort fun a b => decide (a ≤ b)).Pairwise
      (fun a b => decide (a ≤ b) = true) := by
    apply List.pairwise_mergeSort
    · intro a b c hab hbc
      rw [decide_eq_true_eq] at hab hbc ⊢
      exact Std.IsPreorder.le_trans a b c hab hbc
    · intro a b
      simpa using Std.IsLinearPreorder.le_total a b
  simp only [decide_eq_true_eq] at hsorted
  have hperm : s.elems.Perm (l.mergeSort fun a b => decide (a ≤ b)) :=
    h.trans (List.mergeSort_perm l _).symm
  have hsame : s.elems = l.mergeSort fun a b => decide (a ≤ b) :=
    List.Perm.eq_of_pairwise (fun a b _ _ => Std.IsPartialOrder.le_antisymm a b) s.sorted
      hsorted hperm
  rw [findByOrder, orderStatistic, hsame]

omit [DecidableLE α] in
/-- The first element is the least. -/
theorem findByOrder_zero {s : OrderedMultiset α} {l : List α} (h : s.elems.Perm l)
    (hne : l ≠ []) : ∃ a ∈ l, s.findByOrder 0 = some a ∧ ∀ b ∈ l, a ≤ b := by
  cases helems : s.elems with
  | nil => exact absurd (List.Perm.nil_eq (helems ▸ h)).symm hne
  | cons a rest =>
      have hsorted := s.sorted
      rw [helems, List.pairwise_cons] at hsorted
      rw [helems] at h
      refine ⟨a, h.mem_iff.mp List.mem_cons_self, by rw [findByOrder, helems]; rfl, ?_⟩
      intro b hb
      rcases List.mem_cons.mp (h.mem_iff.mpr hb) with rfl | hrest
      · exact Std.IsPreorder.le_refl b
      · exact hsorted.1 b hrest

omit [DecidableLE α] in
/-- The last element is the greatest. -/
theorem findByOrder_last {s : OrderedMultiset α} {l : List α} (h : s.elems.Perm l)
    (hne : l ≠ []) : ∃ a ∈ l, s.findByOrder (l.length - 1) = some a ∧ ∀ b ∈ l, b ≤ a := by
  rcases List.eq_nil_or_concat s.elems with helems | ⟨rest, a, helems⟩
  · exact absurd (List.Perm.nil_eq (helems ▸ h)).symm hne
  · rw [List.concat_eq_append] at helems
    have hsorted := s.sorted
    have hlen := h.length_eq
    rw [helems] at h
    rw [helems, List.pairwise_append] at hsorted
    rw [helems, List.length_append, List.length_singleton] at hlen
    refine ⟨a, h.mem_iff.mp (by simp), ?_, ?_⟩
    · rw [findByOrder, helems, ← hlen, Nat.add_sub_cancel, List.getElem?_concat_length]
    · intro b hb
      rcases List.mem_append.mp (h.mem_iff.mpr hb) with hrest | hlast
      · exact hsorted.2.2 b hrest a (List.mem_singleton_self a)
      · rw [List.mem_singleton.mp hlast]
        exact Std.IsPreorder.le_refl a

end Order

end OrderedMultiset

end Firehose.Foundation
