import Mathlib.Data.List.Infix
import Mathlib.Data.List.Nodup
import Mathlib.Data.List.Perm.Subperm

set_option autoImplicit false

/-!
# Merging streams that share one order

Several senders work through one list, each sending every element a number of times of
its own, and a receiver takes from them in any interleaving.  No element then overtakes an
earlier one: at every moment the earlier one has come at least as often.  A receiver that
acts on an element once it has come often enough acts on the elements in the order of the
list.
-/

namespace Firehose.Foundation

variable {α : Type}

/-! ## Counts along the list -/

section Count

variable [DecidableEq α]

theorem count_flatMap_replicate (l : List α) (k : Nat) (b : α) :
    (l.flatMap fun a => List.replicate k a).count b = l.count b * k := by
  induction l with
  | nil => simp
  | cons a rest ih =>
      rw [List.flatMap_cons, List.count_append, ih, List.count_replicate, List.count_cons,
        Nat.add_mul]
      split <;> simp [Nat.add_comm]

/-- In what one sender has sent so far an element occurs no more often than an earlier
one. -/
theorem count_antitone {order sent : List α} {k : Nat} (hnodup : order.Nodup)
    (h : sent <+: order.flatMap fun a => List.replicate k a) :
    order.Pairwise fun a b => sent.count b ≤ sent.count a := by
  induction order generalizing sent with
  | nil => exact .nil
  | cons a rest ih =>
      obtain ⟨hnew, hrest⟩ := List.nodup_cons.mp hnodup
      rw [List.flatMap_cons] at h
      have hne : ∀ b ∈ rest, ¬ a = b := fun b hb heq => hnew (heq ▸ hb)
      rcases List.prefix_or_prefix_of_prefix h (List.prefix_append (List.replicate k a) _)
        with hshort | ⟨tail, rfl⟩
      · -- still on the copies of `a`, so nothing else has been sent
        have hzero : ∀ b ∈ rest, sent.count b = 0 := by
          intro b hb
          have hle := hshort.sublist.count_le b
          rw [List.count_replicate, if_neg (by simpa using hne b hb)] at hle
          omega
        refine List.pairwise_cons.mpr ⟨fun b hb => by simp [hzero b hb], ?_⟩
        exact List.pairwise_of_forall_mem_list fun b _ c hc => by simp [hzero c hc]
      · have htail := (List.prefix_append_right_inj _).mp h
        have hcount : ∀ b ∈ rest, (List.replicate k a ++ tail).count b = tail.count b := by
          intro b hb
          rw [List.count_append, List.count_replicate, if_neg (by simpa using hne b hb),
            Nat.zero_add]
        have hle : ∀ b ∈ rest, tail.count b ≤ k := by
          intro b hb
          have hall := htail.sublist.count_le b
          have hone := List.nodup_iff_count_le_one.mp hrest b
          calc tail.count b ≤ rest.count b * k := by rwa [count_flatMap_replicate] at hall
            _ ≤ 1 * k := Nat.mul_le_mul_right k hone
            _ = k := Nat.one_mul k
        refine List.pairwise_cons.mpr ⟨fun b hb => ?_, ?_⟩
        · rw [hcount b hb, List.count_append, List.count_replicate_self]
          exact (hle b hb).trans (Nat.le_add_right k _)
        · refine (ih hrest htail).imp_of_mem fun {b c} hb hc hbc => ?_
          rw [hcount b hb, hcount c hc]
          exact hbc

end Count

/-! ## Thresholds along the list -/

section Threshold

variable {order : List α} {reached reached' : α → Bool}

/-- What has been reached, with everything before it, is a prefix of the list. -/
theorem filter_prefix_of_downward
    (hdown : order.Pairwise fun a b => reached b = true → reached a = true) :
    order.filter reached <+: order := by
  induction order with
  | nil => exact List.nil_prefix
  | cons a rest ih =>
      obtain ⟨hfirst, hrest⟩ := List.pairwise_cons.mp hdown
      by_cases ha : reached a = true
      · rw [List.filter_cons_of_pos ha]
        exact List.cons_prefix_cons.mpr ⟨rfl, ih hrest⟩
      · have hnone : rest.filter reached = [] :=
          List.filter_eq_nil_iff.mpr fun b hb hreached => ha (hfirst b hb hreached)
        rw [List.filter_cons_of_neg ha, hnone]
        exact List.nil_prefix

/-- The element reached next comes after all those reached before. -/
theorem filter_snoc_of_downward [DecidableEq α] {a : α} (hnodup : order.Nodup)
    (hmem : a ∈ order) (hnot : reached a = false)
    (hnext : ∀ b, reached' b = (reached b || decide (b = a)))
    (hdown : order.Pairwise fun a b => reached b = true → reached a = true) :
    order.filter reached' = order.filter reached ++ [a] := by
  obtain ⟨before, after, rfl⟩ := List.append_of_mem hmem
  obtain ⟨hbefore, hafter, hapart⟩ := List.nodup_append.mp hnodup
  have hlater : after.filter reached = [] := by
    refine List.filter_eq_nil_iff.mpr fun b hb hreached => ?_
    have hfirst := (List.pairwise_cons.mp (List.pairwise_append.mp hdown).2.1).1 b hb hreached
    simp [hnot] at hfirst
  have hsame : ∀ l : List α, a ∉ l → l.filter reached' = l.filter reached := by
    intro l hl
    refine List.filter_congr fun b hb => ?_
    have hne : b ≠ a := fun heq => hl (heq ▸ hb)
    simp [hnext, hne]
  have hbefore' : a ∉ before := fun ha => hapart a ha a (List.mem_cons_self ..) rfl
  have hafter' : a ∉ after := (List.nodup_cons.mp hafter).1
  simp [hsame before hbefore', hsame after hafter', hlater, hnot, hnext]

end Threshold

/-! ## First occurrences -/

section Firsts

variable [DecidableEq α]

/-- The elements of a list in the order of their first occurrences. -/
def firsts (l : List α) : List α := l.eraseDups

@[simp] theorem firsts_nil : firsts ([] : List α) = [] := rfl

@[simp] theorem mem_firsts {a : α} {l : List α} : a ∈ firsts l ↔ a ∈ l := List.mem_eraseDups

theorem firsts_append (l₁ l₂ : List α) :
    firsts (l₁ ++ l₂) = firsts l₁ ++ firsts (l₂.removeAll l₁) := List.eraseDups_append

theorem firsts_snoc (l : List α) (a : α) :
    firsts (l ++ [a]) = if a ∈ l then firsts l else firsts l ++ [a] := by
  rw [firsts_append]
  by_cases ha : a ∈ l <;> simp [List.removeAll, ha, firsts, List.eraseDups_cons]

theorem firsts_isPrefix {l₁ l₂ : List α} (h : l₁ <+: l₂) : firsts l₁ <+: firsts l₂ := by
  obtain ⟨rest, rfl⟩ := h
  rw [firsts_append]
  exact List.prefix_append _ _

/-- Any number of copies make one first occurrence. -/
theorem firsts_append_replicate (l : List α) (a : α) {k : Nat} (hk : 0 < k) :
    firsts (l ++ List.replicate k a) = if a ∈ l then firsts l else firsts l ++ [a] := by
  induction k with
  | zero => omega
  | succ k ih =>
      by_cases hzero : k = 0
      · subst hzero
        exact firsts_snoc l a
      · have hin : a ∈ l ++ List.replicate k a := by simp [hzero]
        rw [List.replicate_succ', ← List.append_assoc, firsts_snoc, if_pos hin]
        exact ih (by omega)

theorem firsts_nodup (l : List α) : (firsts l).Nodup := by
  induction l using List.reverseRecOn with
  | nil => exact List.nodup_nil
  | append_singleton l a ih =>
      rw [firsts_snoc]
      split
      · exact ih
      · rename_i ha
        exact ih.append (List.nodup_singleton a) (by simpa using ha)

section Acting

variable {order acted : List α} {reached reached' : α → Bool} {a : α} {k : Nat}

/-- A receiver that acts on an element when it is reached goes on in the order of the
list. -/
theorem firsts_of_reached_now (hacted : firsts acted = order.filter reached)
    (hnodup : order.Nodup) (hmem : a ∈ order) (hk : 0 < k) (hnot : reached a = false)
    (hnext : ∀ b, reached' b = (reached b || decide (b = a)))
    (hdown : order.Pairwise fun a b => reached b = true → reached a = true) :
    firsts (acted ++ List.replicate k a) = order.filter reached' := by
  have hnew : a ∉ acted := by
    rw [← mem_firsts, hacted, List.mem_filter, hnot]
    simp
  rw [firsts_append_replicate _ _ hk, if_neg hnew, hacted,
    filter_snoc_of_downward hnodup hmem hnot hnext hdown]

/-- Acting on an element that has been reached before adds nothing. -/
theorem firsts_of_reached_before (hacted : firsts acted = order.filter reached)
    (hmem : a ∈ order) (hold : 0 < k → reached a = true) :
    firsts (acted ++ List.replicate k a) = order.filter reached := by
  rcases Nat.eq_zero_or_pos k with rfl | hk
  · rw [List.replicate_zero, List.append_nil, hacted]
  · have hin : a ∈ acted := by
      rw [← mem_firsts, hacted, List.mem_filter]
      exact ⟨hmem, hold hk⟩
    rw [firsts_append_replicate _ _ hk, if_pos hin, hacted]

end Acting

/-- A merge of streams whose first occurrences each follow one order follows that order:
the merge so far does, one stream goes on by an element and still does, and everything
from that stream is in the merge. -/
theorem firsts_merge {order merged stream : List α} {a : α}
    (hmerged : firsts merged <+: order) (hstream : firsts (stream ++ [a]) <+: order)
    (hsub : ∀ b ∈ stream, b ∈ merged) : firsts (merged ++ [a]) <+: order := by
  rw [firsts_snoc]
  by_cases ha : a ∈ merged
  · rwa [if_pos ha]
  · have hnew : a ∉ stream := fun hin => ha (hsub a hin)
    rw [if_neg ha]
    rw [firsts_snoc, if_neg hnew] at hstream
    have hbefore : firsts stream <+: order := (List.prefix_append _ _).trans hstream
    suffices hsame : firsts merged = firsts stream by rwa [hsame]
    rcases List.prefix_or_prefix_of_prefix hmerged hbefore with hle | ⟨tail, htail⟩
    · -- the stream has nothing that the merge has not
      refine hle.eq_of_length_le ?_
      exact (firsts_nodup stream).length_le_of_subset fun b hb => by
        simpa using hsub b (by simpa using hb)
    · cases tail with
      | nil => simpa using htail.symm
      | cons b rest =>
          -- the order goes on after the stream by `a`, so the merge would have `a`
          exfalso
          rw [← htail] at hmerged
          obtain ⟨u, hu⟩ := hmerged
          obtain ⟨v, hv⟩ := hstream
          have heq := hu.trans hv.symm
          simp only [List.append_assoc, List.cons_append, List.append_cancel_left_eq,
            List.nil_append, List.cons.injEq] at heq
          refine ha (mem_firsts.mp ?_)
          rw [← htail, ← heq.1]
          simp

end Firsts

/-! ## First occurrences by a key -/

section FirstsBy

variable {β γ : Type} [DecidableEq β] {f : α → β}

end FirstsBy

end Firehose.Foundation
