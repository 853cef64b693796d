import Mathlib.Data.Nat.Digits.Defs

set_option autoImplicit false

/-!
# The memory of machine words

A word in memory is the list of its bytes, the least significant first, and an array of
words is the words one after another.
-/

namespace Firehose.Foundation

/-- The `width` low bytes of a number, the least significant first. -/
def littleEndian : Nat → Nat → List UInt8
  | 0, _ => []
  | width + 1, n => UInt8.ofNat n :: littleEndian width (n / 256)

/-- The number whose bytes these are. -/
def ofLittleEndian (bytes : List UInt8) : Nat := Nat.ofDigits 256 (bytes.map UInt8.toNat)

@[simp] theorem length_littleEndian (width n : Nat) : (littleEndian width n).length = width := by
  induction width generalizing n with
  | zero => rfl
  | succ width ih => simp [littleEndian, ih]

theorem ofLittleEndian_littleEndian (width n : Nat) :
    ofLittleEndian (littleEndian width n) = n % 256 ^ width := by
  induction width generalizing n with
  | zero => simp [littleEndian, ofLittleEndian, Nat.mod_one]
  | succ width ih =>
      have htail := ih (n / 256)
      simp only [ofLittleEndian] at htail
      simp only [littleEndian, ofLittleEndian, List.map_cons, Nat.ofDigits_cons, htail]
      rw [Nat.pow_succ', Nat.mod_mul, UInt8.toNat_ofNat']

/-- The memory of a 64-bit word. -/
def wordBytes (w : UInt64) : List UInt8 := littleEndian 8 w.toNat

/-- The 64-bit word in eight bytes of memory. -/
def wordOf (bytes : List UInt8) : UInt64 := UInt64.ofNat (ofLittleEndian bytes)

@[simp] theorem length_wordBytes (w : UInt64) : (wordBytes w).length = 8 :=
  length_littleEndian 8 w.toNat

theorem wordOf_wordBytes (w : UInt64) : wordOf (wordBytes w) = w := by
  rw [wordOf, wordBytes, ofLittleEndian_littleEndian]
  have hsmall : w.toNat % 256 ^ 8 = w.toNat := Nat.mod_eq_of_lt w.toNat_lt
  rw [hsmall, UInt64.ofNat_toNat]

/-- The memory of an array of words. -/
def arrayBytes (words : List UInt64) : List UInt8 := words.flatMap wordBytes

/-- The word at an index of an array in memory. -/
def wordAt (bytes : List UInt8) (i : Nat) : UInt64 := wordOf ((bytes.drop (8 * i)).take 8)

@[simp] theorem length_arrayBytes (words : List UInt64) :
    (arrayBytes words).length = 8 * words.length := by
  induction words with
  | nil => rfl
  | cons w words ih =>
      have hcons : arrayBytes (w :: words) = wordBytes w ++ arrayBytes words := rfl
      rw [hcons, List.length_append, length_wordBytes, ih, List.length_cons]
      omega

/-- Reading an array back, index by index. -/
theorem wordAt_arrayBytes {words : List UInt64} {i : Nat} {w : UInt64}
    (h : words[i]? = some w) : wordAt (arrayBytes words) i = w := by
  induction words generalizing i with
  | nil => simp at h
  | cons v words ih =>
      have hcons : arrayBytes (v :: words) = wordBytes v ++ arrayBytes words := rfl
      cases i with
      | zero =>
          simp only [List.getElem?_cons_zero, Option.some.injEq] at h
          subst h
          rw [wordAt, hcons, Nat.mul_zero, List.drop_zero, List.take_left' (length_wordBytes v),
            wordOf_wordBytes]
      | succ i =>
          rw [List.getElem?_cons_succ] at h
          have hdrop : (wordBytes v ++ arrayBytes words).drop (8 * (i + 1)) =
              (arrayBytes words).drop (8 * i) := by
            rw [Nat.mul_succ, Nat.add_comm, ← List.drop_drop,
              List.drop_left' (length_wordBytes v)]
          rw [wordAt, hcons, hdrop]
          exact ih h

/-! ## Signed words -/

/-- A word read as a signed number. -/
theorem toInt_toInt64 (w : UInt64) :
    w.toInt64.toInt = if w.toNat < 2 ^ 63 then (w.toNat : Int) else w.toNat - 2 ^ 64 := by
  have hcond := BitVec.toInt_eq_toNat_cond w.toBitVec
  have hw : w.toInt64.toInt = w.toBitVec.toInt := rfl
  have hnat : w.toBitVec.toNat = w.toNat := rfl
  rw [hw, hcond, hnat]
  split <;> split <;> omega

/-- A signed number as the word that represents it. -/
theorem toNat_toUInt64 (x : Int64) :
    (x.toUInt64.toNat : Int) = if 0 ≤ x.toInt then x.toInt else x.toInt + 2 ^ 64 := by
  have hx := toInt_toInt64 x.toUInt64
  have hlt := x.toUInt64.toNat_lt
  rw [Int64.toInt64_toUInt64] at hx
  split at hx <;> split <;> omega

/-- The difference of two words below 2^63, read as a signed number. -/
theorem toInt_toInt64_sub {a b : UInt64} (ha : a.toNat < 2 ^ 63) (hb : b.toNat < 2 ^ 63) :
    (a - b).toInt64.toInt = (a.toNat : Int) - b.toNat := by
  have hsub := UInt64.toNat_sub a b
  have hsigned := toInt_toInt64 (a - b)
  rw [hsub] at hsigned
  split at hsigned <;> omega

/-- A number that is not negative as the place it stands for in a list. -/
theorem toNat_toUInt64_toInt64 {x : Int32} (h : 0 ≤ x.toInt) :
    (x.toInt64.toUInt64.toNat : Int) = x.toInt := by
  rw [toNat_toUInt64, Int32.toInt_toInt64, if_pos h]

/-- A word below 2^31 as a signed number of 32 bits. -/
theorem toInt_toInt32_toInt64 {w : UInt64} (h : w.toNat < 2 ^ 31) :
    w.toInt64.toInt32.toInt = w.toNat := by
  rw [Int64.toInt_toInt32, toInt_toInt64, if_pos (by omega)]
  exact Int.bmod_eq_of_le (by omega) (by omega)

/-- Below the greatest signed number the next one does not overflow. -/
theorem toInt_add_one {x : Int32} (h : x ≠ .maxValue) : (x + 1).toInt = x.toInt + 1 := by
  have hlow := x.le_toInt
  have hne : x.toInt ≠ 2 ^ 31 - 1 := fun heq => h (Int32.toInt_inj.mp heq)
  have hlt := x.toInt_lt
  have hone : (1 : Int32).toInt = 1 := rfl
  rw [Int32.toInt_add, hone]
  exact Int.bmod_eq_of_le (by omega) (by omega)

end Firehose.Foundation
