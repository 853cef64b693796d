import Mathlib.Algebra.BigOperators.Fin
import Mathlib.Algebra.Order.BigOperators.Group.Finset
import Mathlib.Data.Fintype.Card

set_option autoImplicit false

/-!
# Counting by sender

A counter that is fed by several senders, fires when it reaches a threshold and starts
again when it is full.  `rounds` is the number of times it has fired after a number of
inputs; the senders' histories are lists, and what the counter was fed is the sum over
the senders of what each history holds.
-/

namespace Firehose.Foundation

/-! ## A cyclic counter with a threshold -/

/-- Number of times a counter modulo `size` has reached `threshold` after `n` inputs. -/
def rounds (size threshold n : Nat) : Nat :=
  n / size + if threshold ≤ n % size then 1 else 0

section Rounds

variable {size threshold : Nat}

theorem rounds_zero (hpos : 0 < threshold) : rounds size threshold 0 = 0 := by
  have : ¬ threshold ≤ 0 := by omega
  simp [rounds, this]

/-- The input that fills the counter starts a new turn. -/
theorem succ_div_mod_of_full {n : Nat} (hsize : 0 < size) (h : n % size + 1 = size) :
    (n + 1) / size = n / size + 1 ∧ (n + 1) % size = 0 := by
  have hn : n + 1 = size * (n / size + 1) := by
    have := Nat.div_add_mod n size
    rw [Nat.mul_add, Nat.mul_one]
    omega
  rw [hn]
  exact ⟨Nat.mul_div_cancel_left _ hsize, Nat.mul_mod_right _ _⟩

/-- Any other input advances the counter within its turn. -/
theorem succ_div_mod_of_lt {n : Nat} (h : n % size + 1 < size) :
    (n + 1) / size = n / size ∧ (n + 1) % size = n % size + 1 := by
  have hn : n + 1 = size * (n / size) + (n % size + 1) := by
    have := Nat.div_add_mod n size
    omega
  constructor
  · conv_lhs => rw [hn]
    rw [Nat.mul_add_div (by omega), Nat.div_eq_of_lt h, Nat.add_zero]
  · conv_lhs => rw [hn]
    rw [Nat.mul_add_mod, Nat.mod_eq_of_lt h]

/-- One more input fires the counter exactly when it makes the count the threshold. -/
theorem rounds_succ (hpos : 0 < threshold) (hle : threshold ≤ size) (n : Nat) :
    rounds size threshold (n + 1) =
      rounds size threshold n + if n % size + 1 = threshold then 1 else 0 := by
  have hlt : n % size < size := Nat.mod_lt n (by omega)
  unfold rounds
  by_cases hfull : n % size + 1 = size
  · obtain ⟨hdiv, hmod⟩ := succ_div_mod_of_full (by omega) hfull
    rw [hdiv, hmod, if_neg (by omega)]
    by_cases hthr : n % size + 1 = threshold
    · rw [if_pos hthr, if_neg (by omega)]
    · rw [if_neg hthr, if_pos (by omega)]
  · obtain ⟨hdiv, hmod⟩ := succ_div_mod_of_lt (show n % size + 1 < size by omega)
    rw [hdiv, hmod]
    by_cases hthr : n % size + 1 = threshold
    · rw [if_pos hthr, if_pos (by omega), if_neg (by omega)]
    · rw [if_neg hthr]
      by_cases hpast : threshold ≤ n % size
      · rw [if_pos hpast, if_pos (by omega)]
      · rw [if_neg hpast, if_neg (by omega)]

/-- The counter has fired as soon as the threshold was reached once. -/
theorem rounds_pos_iff (hpos : 0 < threshold) (hle : threshold ≤ size) (n : Nat) :
    0 < rounds size threshold n ↔ threshold ≤ n := by
  unfold rounds
  by_cases hlt : n < size
  · rw [Nat.div_eq_of_lt hlt, Nat.mod_eq_of_lt hlt]
    by_cases h : threshold ≤ n <;> simp [h]
  · have hdiv : 0 < n / size := Nat.div_pos (by omega) (by omega)
    constructor <;> intro <;> omega

/-- Within one turn of the counter it fires at most once. -/
theorem rounds_le_one (hpos : 0 < threshold) (hle : threshold ≤ size) {n : Nat}
    (hn : n ≤ size) : rounds size threshold n ≤ 1 := by
  unfold rounds
  by_cases hlt : n < size
  · rw [Nat.div_eq_of_lt hlt]
    split <;> omega
  · have heq : n = size := by omega
    subst heq
    rw [Nat.div_self (by omega), Nat.mod_self, if_neg (by omega)]

end Rounds

/-- The inputs of the turn that is not complete yet. -/
def turn {α : Type} (size : Nat) (l : List α) : List α := l.drop (l.length - l.length % size)

section Turn

variable {α : Type} {size : Nat}

theorem length_turn (size : Nat) (l : List α) : (turn size l).length = l.length % size := by
  have hle := Nat.mod_le l.length size
  rw [turn, List.length_drop]
  omega

/-- One more input completes the turn or is added to it. -/
theorem turn_snoc (hsize : 0 < size) (l : List α) (a : α) :
    turn size (l ++ [a]) = if l.length % size + 1 = size then [] else turn size l ++ [a] := by
  have hlt : l.length % size < size := Nat.mod_lt _ hsize
  have hle := Nat.mod_le l.length size
  unfold turn
  rw [List.length_append, List.length_singleton]
  by_cases hfull : l.length % size + 1 = size
  · rw [if_pos hfull, (succ_div_mod_of_full hsize hfull).2]
    simp
  · rw [if_neg hfull, (succ_div_mod_of_lt (by omega)).2, List.drop_append_of_le_length (by omega)]
    congr 2
    omega

end Turn

/-! ## Histories by sender -/

section Senders

variable {ι α : Type}

/-- What one more entry in one sender's history adds to the count over all senders. -/
theorem sum_countP_update_append [DecidableEq ι] [Fintype ι] (p : α → Bool) (h : ι → List α) (i : ι)
    (a : α) :
    ∑ j, (Function.update h i (h i ++ [a]) j).countP p =
      (∑ j, (h j).countP p) + if p a then 1 else 0 := by
  have hone : ∀ j, (Function.update h i (h i ++ [a]) j).countP p =
      (h j).countP p + if j = i then (if p a then 1 else 0) else 0 := by
    intro j
    by_cases hj : j = i
    · subst hj
      simp [List.countP_append, List.countP_singleton]
    · simp [hj]
  simp only [hone, Finset.sum_add_distrib, Finset.sum_ite_eq', Finset.mem_univ, if_true]

/-- The count over all senders when each has sent at most one. -/
theorem sum_le_card [Fintype ι] {f : ι → Nat} (h : ∀ i, f i ≤ 1) :
    ∑ i, f i ≤ Fintype.card ι := by
  calc ∑ i, f i ≤ ∑ _i : ι, 1 := Finset.sum_le_sum fun i _ => h i
    _ = Fintype.card ι := by simp

/-- The count over all senders when each has sent at least one. -/
theorem card_le_sum [Fintype ι] {f : ι → Nat} (h : ∀ i, 1 ≤ f i) :
    Fintype.card ι ≤ ∑ i, f i := by
  calc Fintype.card ι = ∑ _i : ι, 1 := by simp
    _ ≤ ∑ i, f i := Finset.sum_le_sum fun i _ => h i

/-- A list of distinct senders, all with a property, is no longer than the number of
senders that have it. -/
theorem length_le_card_filter [DecidableEq ι] [Fintype ι] {p : ι → Prop} [DecidablePred p]
    {l : List ι} (hnodup : l.Nodup) (h : ∀ i ∈ l, p i) :
    l.length ≤ (Finset.univ.filter p).card := by
  rw [← List.toFinset_card_of_nodup hnodup]
  apply Finset.card_le_card
  intro i hi
  simpa using h i (by simpa using hi)

end Senders

end Firehose.Foundation
