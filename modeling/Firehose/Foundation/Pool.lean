import Mathlib.Data.List.Nodup

set_option autoImplicit false

/-!
# Pools of things that are marked when they are taken

Each thing has its place in a table of flags, and some are reserved from the start.  The
table accounts for what has been taken out of the pool: nothing is taken twice, and a table
without a free flag means that nothing is left.
-/

namespace Firehose.Foundation

/-- Things with their places, and those that are never given away. -/
structure Pool (κ : Type) where
  index : κ → Nat
  index_injective : Function.Injective index
  Reserved : κ → Prop

namespace Pool

variable {κ : Type} {p : Pool κ} {flags : List Bool} {taken : List κ} {k : κ}

/-- A thing that may be taken: it has a flag and is not reserved. -/
def Usable (p : Pool κ) (size : Nat) (k : κ) : Prop := p.index k < size ∧ ¬ p.Reserved k

/-- The flags account for what has been taken. -/
structure Books (p : Pool κ) (flags : List Bool) (taken : List κ) : Prop where
  nodup : taken.Nodup
  usable : ∀ k ∈ taken, p.Usable flags.length k
  flag_iff : ∀ k, p.index k < flags.length →
    (flags[p.index k]? = some true ↔ p.Reserved k ∨ k ∈ taken)

/-- At the start the flags of the reserved things are up. -/
theorem Books.start
    (h : ∀ k, p.index k < flags.length → (flags[p.index k]? = some true ↔ p.Reserved k)) :
    p.Books flags [] where
  nodup := List.nodup_nil
  usable := fun _ hk => absurd hk List.not_mem_nil
  flag_iff := fun k hk => by rw [h k hk, or_iff_left List.not_mem_nil]

/-- What is free has not been taken and may be. -/
theorem Books.free (h : p.Books flags taken) (hfree : flags[p.index k]? = some false) :
    p.Usable flags.length k ∧ k ∉ taken := by
  obtain ⟨hlt, -⟩ := List.getElem?_eq_some_iff.mp hfree
  have hdown : ¬ (p.Reserved k ∨ k ∈ taken) := by
    rw [← h.flag_iff k hlt, hfree]
    exact Bool.false_ne_true ∘ Option.some.inj
  rw [not_or] at hdown
  exact ⟨⟨hlt, hdown.1⟩, hdown.2⟩

/-- Taking what is free and putting its flag up keeps the books. -/
theorem Books.take (h : p.Books flags taken) (hfree : flags[p.index k]? = some false) :
    p.Books (flags.set (p.index k) true) (taken ++ [k]) := by
  obtain ⟨husable, hnew⟩ := h.free hfree
  constructor
  · rw [← List.concat_eq_append]
    exact h.nodup.concat hnew
  · intro j hj
    rw [List.length_set]
    rcases List.mem_append.mp hj with hold | hlast
    · exact h.usable j hold
    · rw [List.mem_singleton.mp hlast]
      exact husable
  · intro j hj
    rw [List.length_set] at hj
    rw [List.mem_append, List.mem_singleton, ← or_assoc, ← h.flag_iff j hj]
    by_cases hjk : j = k
    · subst hjk
      simp [List.getElem?_set_self husable.1]
    · -- no other thing has this place
      have hne : p.index k ≠ p.index j := fun heq => hjk (p.index_injective heq.symm)
      rw [List.getElem?_set_ne hne, or_iff_left hjk]

/-- The flags before a place are all up. -/
def Scanned (flags : List Bool) (i : Nat) : Prop := ∀ j < i, flags[j]? = some true

theorem scanned_zero (flags : List Bool) : Scanned flags 0 :=
  fun _ hj => absurd hj (Nat.not_lt_zero _)

/-- A scan that passes a flag that is up goes on. -/
theorem Scanned.succ {i : Nat} (h : Scanned flags i) (hup : flags[i]? = some true) :
    Scanned flags (i + 1) := by
  intro j hj
  rcases Nat.lt_succ_iff_lt_or_eq.mp hj with hlt | rfl
  · exact h j hlt
  · exact hup

/-- After a scan of the whole table everything that may be taken has been. -/
theorem Books.mem_of_scanned (h : p.Books flags taken) {i : Nat} (hscan : Scanned flags i)
    (hall : flags.length ≤ i) (hk : p.Usable flags.length k) : k ∈ taken := by
  have hup : flags[p.index k]? = some true := hscan _ (Nat.lt_of_lt_of_le hk.1 hall)
  rcases (h.flag_iff k hk.1).mp hup with hreserved | hmem
  · exact absurd hreserved hk.2
  · exact hmem

end Pool

end Firehose.Foundation
