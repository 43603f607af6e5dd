/-
# Floating-point operations

What the crates do with an `f64` or an `f32` beyond its bits: test that it is finite, compare, and
make one from a decimal literal or from a quotient of two integers that are exact.  A literal and
such a quotient are both the nearest representable number (`ofRat`).

Comparison is that of the magnitudes below the sign, which are ordered as the numbers are.
Rounding keeps the order, and that is all that the checks of ranges need to know of it: a quotient
of an integer by a power of ten lies in a range when the integer does.
-/
import Musubi.Lib.BinaryFloat
import Musubi.Types

namespace Musubi

open Lib

/-! ## 1. Operations -/

/-- The bits below the sign. -/
def F64.magnitude (v : F64) : ℕ := v.bits.toNat % binary64.signBit

def F32.magnitude (v : F32) : ℕ := v.bits.toNat % binary32.signBit

/-- `is_finite`. -/
def F64.isFinite (v : F64) : Bool := v.magnitude < binary64.infinity

def F32.isFinite (v : F32) : Bool := v.magnitude < binary32.infinity

/-- `<=`, which no NaN satisfies. -/
def F64.le (a b : F64) : Bool :=
  !a.isNan && !b.isNan && decide (binary64.key a.bits.toNat ≤ binary64.key b.bits.toNat)

def F32.le (a b : F32) : Bool :=
  !a.isNan && !b.isNan && decide (binary32.key a.bits.toNat ≤ binary32.key b.bits.toNat)

/-- `(lo..=hi).contains(&v)`. -/
def F64.within (lo hi v : F64) : Bool := lo.le v && v.le hi

def F32.within (lo hi v : F32) : Bool := lo.le v && v.le hi

/-- `f32::min`, which prefers a number to a NaN. -/
def F32.min (a b : F32) : F32 :=
  if a.isNan then b else if b.isNan then a else if a.le b then a else b

/-- The word of the number nearest to `q`. -/
def wordOfRat (f : BinaryFormat) (q : ℚ) : ℕ :=
  (if q < 0 then f.signBit else 0) + f.encode |q|

def F64.ofRat (q : ℚ) : F64 := ⟨UInt64.ofNat (wordOfRat binary64 q)⟩

def F32.ofRat (q : ℚ) : F32 := ⟨UInt32.ofNat (wordOfRat binary32 q)⟩

/-! ## 2. Comparing roundings -/

theorem encode_lt_signBit (q : ℚ) : binary64.encode q < binary64.signBit :=
  (binary64.encode_le_infinity q).trans_lt (by decide)

theorem F64.toNat_bits_ofRat (q : ℚ) : (F64.ofRat q).bits.toNat = wordOfRat binary64 q := by
  have h := encode_lt_signBit |q|
  have hsign : binary64.signBit = 2 ^ 63 := rfl
  rw [F64.ofRat, UInt64.toNat_ofNat']
  refine Nat.mod_eq_of_lt ?_
  unfold wordOfRat
  split <;> omega

theorem F64.magnitude_ofRat (q : ℚ) : (F64.ofRat q).magnitude = binary64.encode |q| := by
  have h := encode_lt_signBit |q|
  rw [F64.magnitude, F64.toNat_bits_ofRat, wordOfRat]
  split
  · rw [Nat.add_mod_left, Nat.mod_eq_of_lt h]
  · rw [Nat.zero_add, Nat.mod_eq_of_lt h]

theorem F64.isNan_iff (v : F64) : v.isNan = true ↔ binary64.infinity < v.magnitude := by
  have hmask : (v.bits &&& 0x7FFFFFFFFFFFFFFF).toNat = v.magnitude := by
    rw [UInt64.toNat_and]
    exact Nat.and_two_pow_sub_one_eq_mod v.bits.toNat 63
  rw [F64.isNan, decide_eq_true_iff, UInt64.lt_iff_toNat_lt, hmask]
  rfl

@[simp] theorem F64.isNan_ofRat (q : ℚ) : (F64.ofRat q).isNan = false := by
  rw [← Bool.not_eq_true, F64.isNan_iff, F64.magnitude_ofRat, not_lt]
  exact binary64.encode_le_infinity _

theorem key_wordOfRat (q : ℚ) : binary64.key (wordOfRat binary64 q) =
    if q < 0 then -(binary64.encode |q| : ℤ) else binary64.encode |q| := by
  have h := encode_lt_signBit |q|
  unfold wordOfRat BinaryFormat.key
  split
  · rw [if_neg (by omega), Nat.add_sub_cancel_left]
  · rw [Nat.zero_add, if_pos h]

/-- **Rounding keeps the order.** It is not strict, since two rationals can have the same nearest
number. -/
theorem F64.ofRat_le_ofRat {p q : ℚ} (h : p ≤ q) : (F64.ofRat p).le (F64.ofRat q) = true := by
  unfold F64.le
  rw [F64.isNan_ofRat, F64.isNan_ofRat, F64.toNat_bits_ofRat, F64.toNat_bits_ofRat,
    key_wordOfRat, key_wordOfRat]
  simp only [Bool.not_false, Bool.true_and, decide_eq_true_iff]
  by_cases hp : p < 0
  · rw [if_pos hp]
    by_cases hq : q < 0
    · rw [if_pos hq, abs_of_neg hp, abs_of_neg hq]
      have := binary64.encode_mono (neg_le_neg h)
      omega
    · rw [if_neg hq]
      omega
  · have hq : ¬ q < 0 := fun hq => hp (h.trans_lt hq)
    rw [if_neg hp, if_neg hq, abs_of_nonneg (not_lt.mp hp), abs_of_nonneg (not_lt.mp hq)]
    exact_mod_cast binary64.encode_mono h

/-- What lies between two rationals lies between their roundings, because rounding to the nearest
keeps the order. -/
theorem F64.within_ofRat {lo hi q : ℚ} (hlo : lo ≤ q) (hhi : q ≤ hi) :
    F64.within (.ofRat lo) (.ofRat hi) (.ofRat q) = true := by
  rw [F64.within, F64.ofRat_le_ofRat hlo, F64.ofRat_le_ofRat hhi, Bool.and_self]

/-- A rational below a finite number is finite after rounding: the bound is rounded to a finite
number, and rounding keeps the order. -/
theorem F64.isFinite_ofRat {q bound : ℚ} (h : |q| ≤ bound)
    (hbound : binary64.encode bound < binary64.infinity) : (F64.ofRat q).isFinite = true := by
  rw [F64.isFinite, F64.magnitude_ofRat, decide_eq_true_iff]
  exact (binary64.encode_mono h).trans_lt hbound

/-- `0.2_f32`. -/
example : F32.ofRat (2 / 10) = ⟨0x3E4CCCCD⟩ := by decide +kernel

end Musubi
