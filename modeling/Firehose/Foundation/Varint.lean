import Mathlib.Algebra.Ring.Nat

set_option autoImplicit false

/-!
# Sizes of tagged fields

A varint takes one byte for every seven bits of its value.  A field of a message is a tag,
which is a varint, and then a varint or a length and as many bytes.  Negative integers are
sent as the 64-bit words that represent them.
-/

namespace Firehose.Foundation

/-- Number of bytes of a varint. -/
def varintSize (n : Nat) : Nat := if n < 128 then 1 else varintSize (n / 128) + 1
decreasing_by omega

theorem varintSize_of_lt {n : Nat} (h : n < 128) : varintSize n = 1 := by
  rw [varintSize, if_pos h]

theorem varintSize_of_le {n : Nat} (h : 128 ≤ n) : varintSize n = varintSize (n / 128) + 1 := by
  rw [varintSize, if_neg (Nat.not_lt.mpr h)]

theorem varintSize_pos (n : Nat) : 0 < varintSize n := by
  rw [varintSize]
  split <;> omega

/-- A value below the power `k + 1` of 128 takes at most `k + 1` bytes. -/
theorem varintSize_le {k n : Nat} (h : n < 128 ^ (k + 1)) : varintSize n ≤ k + 1 := by
  induction k generalizing n with
  | zero => exact Nat.le_of_eq (varintSize_of_lt (by simpa using h))
  | succ k ih =>
      rcases Nat.lt_or_ge n 128 with hsmall | hlarge
      · rw [varintSize_of_lt hsmall]
        omega
      · have hquot : n / 128 < 128 ^ (k + 1) := Nat.div_lt_of_lt_mul (by rwa [Nat.mul_comm])
        have hrest := ih hquot
        rw [varintSize_of_le hlarge]
        omega

/-- A value from the power `k` of 128 on takes at least `k + 1` bytes. -/
theorem lt_varintSize {k n : Nat} (h : 128 ^ k ≤ n) : k < varintSize n := by
  induction k generalizing n with
  | zero => exact varintSize_pos n
  | succ k ih =>
      have hpos : 0 < 128 ^ k := Nat.pow_pos (by decide)
      have hlarge : 128 ≤ n := by
        rw [Nat.pow_succ] at h
        omega
      have hrest := ih (n := n / 128) ((Nat.le_div_iff_mul_le (by decide)).mpr h)
      rw [varintSize_of_le hlarge]
      omega

/-- Number of bytes of an unsigned word. -/
def wordSize (word : UInt64) : Nat := varintSize word.toNat

/-- A 64-bit word takes ten bytes at most. -/
theorem wordSize_le (word : UInt64) : wordSize word ≤ 10 :=
  varintSize_le (Nat.lt_of_lt_of_le word.toNat_lt (by decide))

/-- Number of bytes of the tag of a field. -/
def tagSize (field wireType : Nat) : Nat := varintSize (8 * field + wireType)

/-- A field that holds an integer. -/
def integerField (field : Nat) (word : UInt64) : Nat := tagSize field 0 + wordSize word

/-- A field that holds a number of bytes: a string, a byte string or a message. -/
def lengthField (field length : Nat) : Nat := tagSize field 2 + varintSize length + length

/-- A field that may be absent. -/
def optionalField {α : Type} (size : α → Nat) : Option α → Nat
  | none => 0
  | some a => size a

@[simp] theorem optionalField_none {α : Type} (size : α → Nat) :
    optionalField size none = 0 := rfl

@[simp] theorem optionalField_some {α : Type} (size : α → Nat) (a : α) :
    optionalField size (some a) = size a := rfl

theorem tagSize_of_lt {field wireType : Nat} (h : 8 * field + wireType < 128) :
    tagSize field wireType = 1 := varintSize_of_lt h

theorem tagSize_of_le {field wireType : Nat} (hlow : 128 ≤ 8 * field + wireType)
    (hhigh : 8 * field + wireType < 128 * 128) : tagSize field wireType = 2 := by
  unfold tagSize
  rw [varintSize_of_le hlow, varintSize_of_lt (Nat.div_lt_of_lt_mul hhigh)]

/-- A field of less than 128 bytes has a length of one byte. -/
theorem lengthField_of_lt {field length : Nat} (hfield : 8 * field + 2 < 128)
    (hlength : length < 128) : lengthField field length = 2 + length := by
  unfold lengthField
  rw [tagSize_of_lt hfield, varintSize_of_lt hlength]

end Firehose.Foundation
