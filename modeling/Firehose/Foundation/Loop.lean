import Firehose.Foundation.Run
import Mathlib.Algebra.Ring.Nat

set_option autoImplicit false

/-!
# Loops over a 64-bit counter

The loop `for (uint64_t i = first; i <= bound; i++)` around a body that may fail.  It comes
to its end exactly when the bound is not the greatest word: no counter is above that one.
-/

namespace Firehose.Foundation

/-- Below the greatest word the next word is the next number. -/
theorem toNat_add_one {i : UInt64} (h : i.toNat + 1 < 2 ^ 64) :
    (i + 1).toNat = i.toNat + 1 := by
  rw [UInt64.toNat_add]
  exact Nat.mod_eq_of_lt h

/-- A loop that counts up to a bound, the bound included. -/
structure WordLoop (σ : Type) where
  bound : UInt64
  body : UInt64 → σ → Option σ

namespace WordLoop

variable {σ : Type}

/-- One turn of the loop. -/
def next (l : WordLoop σ) (s : UInt64 × σ) (_ : Unit) : Option (UInt64 × σ) :=
  if s.1 ≤ l.bound then (l.body s.1 s.2).map fun s' => (s.1 + 1, s') else none

/-- The condition of the loop has failed. -/
def Ended (l : WordLoop σ) (s : UInt64 × σ) : Prop := l.bound < s.1

variable {l : WordLoop σ} {first i : UInt64} {s₀ s : σ}
variable {trace : List ((UInt64 × σ) × Unit)}

/-- Everything a turn can do. -/
theorem next_eq_some {r r' : UInt64 × σ} {a : Unit} (h : Steps l.next r a r') :
    r.1 ≤ l.bound ∧ r'.1 = r.1 + 1 ∧ l.body r.1 r.2 = some r'.2 := by
  simp only [Steps, next] at h
  split at h
  · rename_i hle
    obtain ⟨s', hbody, rfl⟩ := Option.map_eq_some_iff.mp h
    exact ⟨hle, rfl, hbody⟩
  · simp at h

/-- Below the greatest word the counter does not wrap. -/
theorem toNat_counter (hbound : l.bound.toNat + 1 < 2 ^ 64)
    (h : Run (Steps l.next) (first, s₀) trace (i, s)) :
    i.toNat = first.toNat + trace.length ∧
      (trace = [] ∨ i.toNat ≤ l.bound.toNat + 1) := by
  refine h.history_keeps (I := fun trace r => r.1.toNat = first.toNat + trace.length ∧
      (trace = [] ∨ r.1.toNat ≤ l.bound.toNat + 1)) ⟨rfl, Or.inl rfl⟩ ?_
  intro t r a r' hinv hstep
  obtain ⟨hle, hnext, -⟩ := next_eq_some hstep
  have hnat : r.1.toNat ≤ l.bound.toNat := UInt64.le_iff_toNat_le.mp hle
  rw [hnext, toNat_add_one (by omega), List.length_append, List.length_singleton]
  exact ⟨by omega, Or.inr (by omega)⟩

/-- The number of turns a loop makes. -/
theorem length_of_ended (hbound : l.bound.toNat + 1 < 2 ^ 64)
    (h : Run (Steps l.next) (first, s₀) trace (i, s)) (hend : l.Ended (i, s)) :
    trace.length = l.bound.toNat + 1 - first.toNat := by
  obtain ⟨hcount, hbounded⟩ := toNat_counter hbound h
  have hlt : l.bound.toNat < i.toNat := UInt64.lt_iff_toNat_lt.mp hend
  rcases hbounded with rfl | hle
  · simp only [List.length_nil] at hcount ⊢
    omega
  · omega

/-- If the body keeps an invariant under which it does not fail, the loop comes to its
end. -/
theorem exists_ended {I : σ → Prop} (hbound : l.bound.toNat + 1 < 2 ^ 64)
    (hbody : ∀ i s, I s → ∃ s', l.body i s = some s' ∧ I s') (first : UInt64) (s₀ : σ)
    (hinit : I s₀) :
    ∃ trace r, Run (Steps l.next) (first, s₀) trace r ∧ l.Ended r := by
  have hturn : ∀ r : UInt64 × σ, I r.2 → ¬ l.Ended r →
      ∃ a r', True ∧ Steps l.next r a r' ∧ I r'.2 ∧
        l.bound.toNat + 1 - r'.1.toNat < l.bound.toNat + 1 - r.1.toNat := by
    rintro ⟨i, s⟩ hs hgoal
    obtain ⟨s', hs', hinv⟩ := hbody i s hs
    have hle : i ≤ l.bound := UInt64.not_lt.mp hgoal
    have hnat : i.toNat ≤ l.bound.toNat := UInt64.le_iff_toNat_le.mp hle
    have hsucc : (i + 1).toNat = i.toNat + 1 := toNat_add_one (by omega)
    refine ⟨(), (i + 1, s'), trivial, ?_, hinv, ?_⟩
    · simp [Steps, next, hle, hs']
    · simp only [hsucc]
      omega
  obtain ⟨trace, r, hrun, -, -, hend⟩ :=
    Run.exists_to (fun r => l.bound.toNat + 1 - r.1.toNat) hturn (first, s₀) hinit
  exact ⟨trace, r, hrun, hend⟩

/-- No loop up to the greatest word comes to its end. -/
theorem not_ended_of_bound (hbound : l.bound.toNat + 1 = 2 ^ 64) (r : UInt64 × σ) :
    ¬ l.Ended r := by
  intro hend
  have hlt := UInt64.lt_iff_toNat_lt.mp hend
  have hmax := r.1.toNat_lt
  omega

end WordLoop

end Firehose.Foundation
