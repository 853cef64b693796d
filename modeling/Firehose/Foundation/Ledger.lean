import Firehose.Foundation.Run
import Mathlib.Data.List.Induction

set_option autoImplicit false

/-!
# Servers that book what they are asked to

A request may open an entry under a key and another may close one.  A server that keeps
the balance of each key, and is undefined on closing what is not open, is defined on a
list of requests exactly when no beginning of the list closes more than it opens.
-/

namespace Firehose.Foundation

variable {σ α κ : Type}

/-- Each label of a list has a property in the state it finds, as far as the list runs. -/
def Along (next : σ → α → Option σ) (s₀ : σ) (labels : List α) (Q : σ → α → Prop) : Prop :=
  ∀ trace s a rest, Run (Steps next) s₀ trace s → labels = trace.map (·.2) ++ a :: rest → Q s a

theorem Along.of_append {next : σ → α → Option σ} {s₀ : σ} {l₁ l₂ : List α}
    {Q : σ → α → Prop} (h : Along next s₀ (l₁ ++ l₂) Q) : Along next s₀ l₁ Q := by
  intro trace s a rest hrun hl
  exact h trace s a (rest ++ l₂) hrun (by simp [hl])

/-- If no label is refused where it comes, there is a run over the labels. -/
theorem Along.exists_run {next : σ → α → Option σ} {s₀ : σ} {labels : List α}
    (h : Along next s₀ labels fun s a => (next s a).isSome = true) :
    ∃ trace s, Run (Steps next) s₀ trace s ∧ trace.map (·.2) = labels := by
  induction labels using List.reverseRecOn with
  | nil => exact ⟨[], s₀, .refl, rfl⟩
  | append_singleton l a ih =>
      obtain ⟨trace, s, hrun, hl⟩ := ih h.of_append
      obtain ⟨s', hs'⟩ := Option.isSome_iff_exists.mp (h trace s a [] hrun (by rw [hl]))
      exact ⟨trace ++ [(s, a)], s', .snoc hrun hs', by simp [hl]⟩

/-- A server as far as what it books is concerned. -/
structure Ledger (σ α κ : Type) where
  next : σ → α → Option σ
  /-- Number of open entries under a key. -/
  held : σ → κ → Nat
  /-- The key a request opens an entry under. -/
  opens : α → Option κ
  /-- The key a request closes an entry of. -/
  closes : α → Option κ

namespace Ledger

variable [DecidableEq κ]

/-- How often a list of requests opens an entry under a key. -/
def opened (l : Ledger σ α κ) (k : κ) (labels : List α) : Nat :=
  labels.countP fun a => decide (l.opens a = some k)

/-- How often a list of requests closes an entry of a key. -/
def closed (l : Ledger σ α κ) (k : κ) (labels : List α) : Nat :=
  labels.countP fun a => decide (l.closes a = some k)

/-- No beginning of a list of requests closes a key more often than it opens it. -/
def Solvent (l : Ledger σ α κ) (labels : List α) : Prop :=
  ∀ before rest, labels = before ++ rest → ∀ k, l.closed k before ≤ l.opened k before

/-- A server that keeps the balance of each key from its states onwards that satisfy `I`. -/
structure Lawful (l : Ledger σ α κ) (I : σ → Prop) : Prop where
  inv_next : ∀ {s a s'}, I s → l.next s a = some s' → I s'
  held_next : ∀ {s a s'}, I s → l.next s a = some s' → ∀ k,
    l.held s' k + (if l.closes a = some k then 1 else 0) =
      l.held s k + if l.opens a = some k then 1 else 0
  isSome_iff : ∀ {s a}, I s →
    ((l.next s a).isSome = true ↔ ∀ k ∈ l.closes a, 0 < l.held s k)
  opens_of_closes : ∀ {a k}, l.closes a = some k → l.opens a = none

variable {l : Ledger σ α κ} {I : σ → Prop}

/-- Over a run every key is held as often as it was opened and not closed. -/
theorem Lawful.held_run (hl : l.Lawful I) {s₀ s : σ} {trace : List (σ × α)}
    (h : Run (Steps l.next) s₀ trace s) (hinit : I s₀) (hnone : ∀ k, l.held s₀ k = 0) :
    I s ∧ ∀ k, l.held s k + l.closed k (trace.map (·.2)) = l.opened k (trace.map (·.2)) := by
  induction h with
  | refl => exact ⟨hinit, fun k => by simp [closed, opened, hnone]⟩
  | @snoc trace s s' a _ hone ih =>
      obtain ⟨hinv, hheld⟩ := ih
      refine ⟨hl.inv_next hinv hone, fun k => ?_⟩
      have hnew := hl.held_next hinv hone k
      have hold := hheld k
      simp only [closed, opened, List.map_append, List.map_singleton, List.countP_append,
        List.countP_singleton, decide_eq_true_eq] at hold ⊢
      omega

/-- A server that keeps its balances refuses none of a list of requests exactly when the
list is solvent. -/
theorem Lawful.along_isSome_iff (hl : l.Lawful I) {s₀ : σ} (hinit : I s₀)
    (hnone : ∀ k, l.held s₀ k = 0) (labels : List α) :
    (Along l.next s₀ labels fun s a => (l.next s a).isSome = true) ↔ l.Solvent labels := by
  constructor
  · intro h before rest hcut k
    rw [hcut] at h
    obtain ⟨trace, s, hrun, hlabels⟩ := h.of_append.exists_run
    have hheld := (hl.held_run hrun hinit hnone).2 k
    rw [hlabels] at hheld
    omega
  · intro hsolvent trace s a rest hrun hcut
    obtain ⟨hinv, hheld⟩ := hl.held_run hrun hinit hnone
    rw [hl.isSome_iff hinv]
    intro k hk
    have hcloses : l.closes a = some k := hk
    have hopens : l.opens a = none := hl.opens_of_closes hcloses
    -- the beginning that ends with this request is covered too
    have hle := hsolvent (trace.map (·.2) ++ [a]) rest (by simp [hcut]) k
    have hbalance := hheld k
    simp only [closed, opened, List.countP_append, List.countP_singleton,
      decide_eq_true_eq] at hle hbalance
    rw [if_pos hcloses, hopens] at hle
    simp only [reduceCtorEq, if_false] at hle
    omega

/-- What is the same as not being refused holds along the solvent lists only. -/
theorem Lawful.along_iff (hl : l.Lawful I) {s₀ : σ} {Q : σ → α → Prop} (hinit : I s₀)
    (hnone : ∀ k, l.held s₀ k = 0)
    (hQ : ∀ s a, I s → (Q s a ↔ (l.next s a).isSome = true)) (labels : List α) :
    Along l.next s₀ labels Q ↔ l.Solvent labels := by
  rw [← hl.along_isSome_iff hinit hnone labels]
  refine forall₄_congr fun trace s a rest => forall₂_congr fun hrun _ => ?_
  exact hQ s a (hl.held_run hrun hinit hnone).1

end Ledger

end Firehose.Foundation
