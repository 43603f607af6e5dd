/-
# Floats in a range

What is computed from numbers that lie between zero and a power of two lies there too: a sum below
the next power, a product below the product of the bounds.  Rounding does not leave the range,
because a power of two is a number of the format.

This is what keeps the estimates of the analysis finite.  A bound that is a power of two survives
rounding exactly, so the bounds of a computation can be added up in the exponents, without a term
for the errors.
-/
import Musubi.FloatArith

namespace Musubi

open Lib

namespace F64

/-- A finite number from zero up to 2^k. -/
structure UpTo (v : F64) (k : ℕ) : Prop where
  finite : v.isFinite = true
  positive : v.isNegative = false
  le : v.toRat ≤ 2 ^ k

namespace UpTo

variable {a b v : F64} {j k : ℕ}

theorem not_nan (h : v.UpTo k) : v.isNan = false := by
  have hfinite := of_decide_eq_true h.finite
  rw [← Bool.not_eq_true, isNan_iff]
  omega

theorem nonneg (h : v.UpTo k) : 0 ≤ v.toRat := by
  rw [toRat, h.positive, if_neg Bool.false_ne_true, one_mul]
  exact binary64.value_nonneg _

end UpTo

/-! ## 1. Rounding -/

theorem upTo_ofRat {q : ℚ} {k : ℕ} (h0 : 0 ≤ q) (h : q ≤ 2 ^ k) (hk : k < 1024) :
    (ofRat q).UpTo k := by
  have hword : wordOfRat binary64 q = binary64.encode q := by
    rw [wordOfRat, if_neg (not_lt.mpr h0), abs_of_nonneg h0, Nat.zero_add]
  have hpositive : (ofRat q).isNegative = false := by
    rw [isNegative, toNat_bits_ofRat, hword]
    exact decide_eq_false (not_le.mpr (encode_lt_signBit q))
  have hinfinity : (k + 1023) * 2 ^ 52 < binary64.infinity := by
    have : binary64.infinity = 2047 * 2 ^ 52 := rfl
    omega
  rw [← binary64_value_two_pow k] at h
  refine ⟨?_, hpositive, ?_⟩
  · have hle := binary64.encode_mono h
    rw [binary64.encode_value hinfinity.le] at hle
    rw [isFinite, magnitude_ofRat, abs_of_nonneg h0]
    exact decide_eq_true (hle.trans_lt hinfinity)
  · rw [toRat, hpositive, if_neg Bool.false_ne_true, one_mul, magnitude_ofRat, abs_of_nonneg h0,
      ← binary64_value_two_pow k]
    exact binary64.value_encode_le hinfinity.le h

theorem upTo_nearest {q : ℚ} {k : ℕ} (h0 : 0 ≤ q) (h : q ≤ 2 ^ k) (hk : k < 1024) :
    (nearest false q).UpTo k := by
  unfold nearest
  split
  · rename_i hzero
    rw [hzero] at h0 h
    have hsigned : signed false 0 = ofRat 0 := by decide +kernel
    rw [hsigned]
    exact upTo_ofRat h0 h hk
  · exact upTo_ofRat h0 h hk

theorem upTo_ofInt {v : ℤ} {k : ℕ} (h0 : 0 ≤ v) (h : v ≤ 2 ^ k) (hk : k < 1024) :
    (ofInt v).UpTo k :=
  upTo_ofRat (by exact_mod_cast h0) (by exact_mod_cast h) hk

/-! ## 2. Operations -/

namespace UpTo

variable {a b v : F64} {j k : ℕ}

theorem add (ha : a.UpTo k) (hb : b.UpTo k) (hk : k + 1 < 1024) : (a.add b).UpTo (k + 1) := by
  have hsum : a.toRat + b.toRat ≤ 2 ^ (k + 1) := by
    rw [pow_succ, mul_two]
    exact add_le_add ha.le hb.le
  rw [F64.add, ha.not_nan, hb.not_nan, ha.finite, hb.finite, ha.positive, hb.positive]
  exact upTo_nearest (add_nonneg ha.nonneg hb.nonneg) hsum hk

theorem mul (ha : a.UpTo j) (hb : b.UpTo k) (hjk : j + k < 1024) : (a.mul b).UpTo (j + k) := by
  have hproduct : a.toRat * b.toRat ≤ 2 ^ (j + k) := by
    rw [pow_add]
    exact mul_le_mul ha.le hb.le hb.nonneg (by positivity)
  rw [F64.mul, ha.not_nan, hb.not_nan, ha.finite, hb.finite, ha.positive, hb.positive]
  exact upTo_nearest (mul_nonneg ha.nonneg hb.nonneg) hproduct hjk

/-- The next integer. -/
theorem ceilAsI128 (h : v.UpTo k) (hk : k < 127) :
    0 ≤ v.ceilAsI128 ∧ v.ceilAsI128 ≤ 2 ^ k := by
  have hceil : ⌈v.toRat⌉ ≤ 2 ^ k := Int.ceil_le.mpr (by exact_mod_cast h.le)
  have hceil0 : 0 ≤ ⌈v.toRat⌉ := Int.ceil_nonneg h.nonneg
  have hpow : (2 : ℤ) ^ k ≤ 2 ^ 126 := pow_le_pow_right₀ (by decide) (by omega)
  rw [F64.ceilAsI128, h.not_nan, h.finite]
  simp only [Bool.false_eq_true, if_false, Bool.not_true]
  omega

end UpTo

end F64

end Musubi
