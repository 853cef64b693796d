import Mathlib.Data.List.Nodup
import Mathlib.Data.List.Perm.Subperm
import Mathlib.Data.Nat.ModEq

set_option autoImplicit false

/-!
# Taking turns

A list that goes round some values takes them in turn: no value comes again before all the
others have come, and so no value comes more than once more often than another.
-/

namespace Firehose.Foundation

variable {α : Type} {values l part : List α}

/-! ## Lists that repeat nothing too early -/

/-- No value comes twice within `size` places. -/
def Spread (size : Nat) (l : List α) : Prop :=
  ∀ part, part <:+: l → part.length ≤ size → part.Nodup

theorem Spread.of_infix {size : Nat} (h : Spread size l) (hpart : part <:+: l) :
    Spread size part := by
  intro part' hpart' hlen
  exact h part' (hpart'.trans hpart) hlen

/-- A round without a repetition leaves no value out. -/
theorem count_le_of_round [DecidableEq α] {p q : α} (hnodup : part.Nodup)
    (hmem : ∀ x ∈ part, x ∈ values) (hlen : values.length ≤ part.length) (hq : q ∈ values) :
    part.count p ≤ part.count q := by
  have hperm : part.Perm values :=
    (List.subperm_of_subset hnodup hmem).perm_of_length_le hlen
  have hp : part.count p ≤ 1 := List.nodup_iff_count_le_one.mp hnodup p
  have hone : 0 < part.count q := List.count_pos_iff.mpr (hperm.mem_iff.mpr hq)
  omega

/-- No value comes more than once more often than another. -/
theorem Spread.count_le [DecidableEq α] {l : List α} {p q : α} (h : Spread values.length l)
    (hmem : ∀ x ∈ l, x ∈ values) (hq : q ∈ values) : l.count p ≤ l.count q + 1 := by
  rcases Nat.lt_or_ge l.length values.length with hshort | hlong
  · have hnodup : l.Nodup := h l List.infix_rfl (by omega)
    have hp : l.count p ≤ 1 := List.nodup_iff_count_le_one.mp hnodup p
    omega
  · -- the first round counts every value once
    have hfirst : ∀ x ∈ l.take values.length, x ∈ values :=
      fun x hx => hmem x (List.mem_of_mem_take hx)
    have hround : (l.take values.length).count p ≤ (l.take values.length).count q := by
      apply count_le_of_round _ hfirst _ hq
      · exact h _ (List.take_prefix _ _).isInfix (List.length_take_le _ _)
      · rw [List.length_take]
        omega
    have hrest : (l.drop values.length).count p ≤ (l.drop values.length).count q + 1 :=
      Spread.count_le (h.of_infix (List.drop_suffix _ _).isInfix)
        (fun x hx => hmem x (List.mem_of_mem_drop hx)) hq
    have hsplit : ∀ x, l.count x =
        (l.take values.length).count x + (l.drop values.length).count x := by
      intro x
      rw [← List.count_append, List.take_append_drop]
    rw [hsplit p, hsplit q]
    omega
termination_by l.length
decreasing_by
  have hpos := List.length_pos_of_mem hq
  rw [List.length_drop]
  omega

/-! ## Going round -/

/-- The list goes round the values, from the value at the place `start` on. -/
def Cyclic (values : List α) (start : Nat) (l : List α) : Prop :=
  ∀ i < l.length, l[i]? = values[(start + i) % values.length]?

namespace Cyclic

variable {start : Nat}

theorem nil : Cyclic values start [] := by
  intro i hi
  simp at hi

theorem snoc {p : α} (h : Cyclic values start l)
    (hp : values[(start + l.length) % values.length]? = some p) :
    Cyclic values start (l ++ [p]) := by
  intro i hi
  rw [List.length_append, List.length_singleton] at hi
  rcases Nat.lt_or_ge i l.length with hlt | hge
  · rw [List.getElem?_append_left hlt]
    exact h i hlt
  · have hlast : i = l.length := by omega
    subst hlast
    rw [List.getElem?_concat_length, hp]

theorem mem (h : Cyclic values start l) {x : α} (hx : x ∈ l) : x ∈ values := by
  obtain ⟨i, hi, rfl⟩ := List.mem_iff_getElem.mp hx
  have hget := h i hi
  rw [List.getElem?_eq_getElem hi] at hget
  exact List.mem_of_getElem? hget.symm

theorem of_infix {before after : List α} (h : Cyclic values start (before ++ part ++ after)) :
    Cyclic values (start + before.length) part := by
  intro i hi
  have hget := h (before.length + i) (by simp only [List.length_append]; omega)
  rw [List.append_assoc, List.getElem?_append_right (Nat.le_add_right _ _),
    Nat.add_sub_cancel_left, List.getElem?_append_left hi] at hget
  rw [hget, Nat.add_assoc]

/-- One round or less of different values repeats nothing. -/
theorem nodup (h : Cyclic values start l) (hvalues : values.Nodup)
    (hlen : l.length ≤ values.length) : l.Nodup := by
  rw [List.nodup_iff_getElem?_ne_getElem?]
  intro i j hij hj heq
  rw [h i (by omega), h j hj] at heq
  have hpos : 0 < values.length := by omega
  have hplace : (start + i) % values.length = (start + j) % values.length :=
    (List.getElem?_inj (Nat.mod_lt _ hpos) hvalues).mp heq
  have hmod : i % values.length = j % values.length :=
    Nat.ModEq.add_left_cancel' start hplace
  rw [Nat.mod_eq_of_lt (by omega), Nat.mod_eq_of_lt (by omega)] at hmod
  omega

end Cyclic

/-! ## Two rounds at once -/

/-- Going round `m` places and `n` places at once, two places come together exactly when
they agree modulo the greatest common divisor, and then before either round starts over. -/
theorem exists_together_iff {m n a b : Nat} (ha : a < m) (hb : b < n) :
    (∃ j < Nat.lcm m n, j % m = a ∧ j % n = b) ↔ a ≡ b [MOD Nat.gcd m n] := by
  constructor
  · rintro ⟨j, -, rfl, rfl⟩
    have hleft : j % m ≡ j [MOD Nat.gcd m n] := (Nat.mod_modEq j m).of_dvd (Nat.gcd_dvd_left m n)
    have hright : j % n ≡ j [MOD Nat.gcd m n] :=
      (Nat.mod_modEq j n).of_dvd (Nat.gcd_dvd_right m n)
    exact hleft.trans hright.symm
  · intro h
    obtain ⟨hm, hn⟩ := (Nat.chineseRemainder' h).prop
    refine ⟨Nat.chineseRemainder' h,
      Nat.chineseRemainder'_lt_lcm h (Nat.ne_of_gt (Nat.zero_lt_of_lt ha))
        (Nat.ne_of_gt (Nat.zero_lt_of_lt hb)), ?_, ?_⟩
    · exact Eq.trans hm (Nat.mod_eq_of_lt ha)
    · exact Eq.trans hn (Nat.mod_eq_of_lt hb)

end Firehose.Foundation
