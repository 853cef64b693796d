set_option autoImplicit false

/-!
# Maps with a default-inserting index

An ordered or hashed map of the standard libraries, seen through its lookup
function.  Two operations differ from the usual finite-map interface and are the
reason this file exists: `get` reads the value the index operator refers to,
which is the default of the value type when the key is absent, and `touch` is
what that read leaves behind, a map in which the key is present.
-/

namespace Firehose.Foundation

/-- A map from keys to values. -/
structure Map (K V : Type) where
  /-- The value stored under a key, if the key is present. -/
  find? : K → Option V

namespace Map

variable {K V : Type}

/-- The map with no entry. -/
def empty : Map K V := ⟨fun _ => none⟩

instance : Inhabited (Map K V) := ⟨empty⟩

/-- Number of entries under a key, as a map's `count` reports it. -/
def count (m : Map K V) (k : K) : Nat := if (m.find? k).isSome then 1 else 0

/-- The value the index operator refers to. -/
def get [Inhabited V] (m : Map K V) (k : K) : V := (m.find? k).getD default

section Update

variable [DecidableEq K]

/-- Assign a value to a key. -/
def set (m : Map K V) (k : K) (v : V) : Map K V :=
  ⟨fun k' => if k' = k then some v else m.find? k'⟩

/-- Remove a key. -/
def erase (m : Map K V) (k : K) : Map K V :=
  ⟨fun k' => if k' = k then none else m.find? k'⟩

/-- What reading a key through the index operator leaves behind. -/
def touch [Inhabited V] (m : Map K V) (k : K) : Map K V := m.set k (m.get k)

end Update

@[simp] theorem find?_empty (k : K) : (empty : Map K V).find? k = none := rfl

@[simp] theorem get_empty [Inhabited V] (k : K) : (empty : Map K V).get k = default := rfl

@[simp] theorem get_default [Inhabited V] (k : K) : (default : Map K V).get k = default := rfl

/-- The empty list is what a list-valued map reads at an absent key. -/
@[simp] theorem default_list {α : Type} : (default : List α) = [] := rfl

theorem count_eq_zero {m : Map K V} {k : K} : m.count k = 0 ↔ m.find? k = none := by
  cases h : m.find? k <;> simp [count, h]

theorem get_of_find?_none [Inhabited V] {m : Map K V} {k : K}
    (h : m.find? k = none) : m.get k = default := by
  simp [get, h]

section Update

variable [DecidableEq K]

theorem find?_set (m : Map K V) (k k' : K) (v : V) :
    (m.set k v).find? k' = if k' = k then some v else m.find? k' := rfl

theorem get_set [Inhabited V] (m : Map K V) (k k' : K) (v : V) :
    (m.set k v).get k' = if k' = k then v else m.get k' := by
  rw [get, find?_set]
  split <;> rfl

@[simp] theorem find?_set_self (m : Map K V) (k : K) (v : V) :
    (m.set k v).find? k = some v := by
  simp [set]

theorem find?_set_ne (m : Map K V) {k k' : K} (v : V) (h : k' ≠ k) :
    (m.set k v).find? k' = m.find? k' := by
  simp [set, h]

@[simp] theorem find?_erase_self (m : Map K V) (k : K) :
    (m.erase k).find? k = none := by
  simp [erase]

theorem find?_erase_ne (m : Map K V) {k k' : K} (h : k' ≠ k) :
    (m.erase k).find? k' = m.find? k' := by
  simp [erase, h]

@[simp] theorem get_set_self [Inhabited V] (m : Map K V) (k : K) (v : V) :
    (m.set k v).get k = v := by
  simp [get]

theorem get_set_ne [Inhabited V] (m : Map K V) {k k' : K} (v : V) (h : k' ≠ k) :
    (m.set k v).get k' = m.get k' := by
  simp [get, find?_set_ne m v h]

@[simp] theorem get_erase_self [Inhabited V] (m : Map K V) (k : K) :
    (m.erase k).get k = default := by
  simp [get]

/-- Reading a key never changes what any key reads as. -/
@[simp] theorem get_touch [Inhabited V] (m : Map K V) (k k' : K) :
    (m.touch k).get k' = m.get k' := by
  by_cases h : k' = k
  · subst h; simp [touch]
  · simp [touch, get_set_ne m _ h]

end Update

end Map

end Firehose.Foundation
