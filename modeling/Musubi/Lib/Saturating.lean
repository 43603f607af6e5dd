/-
# Integers without overflow

A saturating operation computes in the integers and clamps; a plain one is exact as long as the
result is representable.  On signed 64 bits both are read back through `toInt`.

Clamping is monotone and leaves representable integers alone.  A comparison of saturated values
therefore says something about the exact ones: what is strictly less after clamping was strictly
less before.
-/
import Musubi.Lib.CheckedInt

namespace Lib

/-- The nearest representable integer. -/
def clamp64 (v : ℤ) : Int64 := Int64.ofInt (max (-2 ^ 63) (min v (2 ^ 63 - 1)))

/-- `a.saturating_add(b)`. -/
def satAdd64 (a b : Int64) : Int64 := clamp64 (a.toInt + b.toInt)

/-- `a.saturating_sub(b)`. -/
def satSub64 (a b : Int64) : Int64 := clamp64 (a.toInt - b.toInt)

theorem toInt_clamp64 {v : ℤ} (h : InI64 v) : (clamp64 v).toInt = v := by
  have hclamp : max (-2 ^ 63) (min v (2 ^ 63 - 1)) = v := by
    rw [min_eq_left (by have := h.2; omega), max_eq_right h.1]
  rw [clamp64, hclamp, toInt_ofInt64 h]

/-- Clamping from above: what is not representable is the largest value. -/
theorem toInt_clamp64_of_nonneg {v : ℤ} (h : 0 ≤ v) :
    (clamp64 v).toInt = min v (2 ^ 63 - 1) := by
  have hfits : InI64 (min v (2 ^ 63 - 1)) := by
    constructor <;> omega
  have hclamp : max (-2 ^ 63) (min v (2 ^ 63 - 1)) = min v (2 ^ 63 - 1) := max_eq_right hfits.1
  rw [clamp64, hclamp, toInt_ofInt64 hfits]

/-- A subtraction that does not overflow is the subtraction of the integers. -/
theorem toInt_sub64 {a b : Int64} (h : InI64 (a.toInt - b.toInt)) :
    (a - b).toInt = a.toInt - b.toInt := by
  rw [Int64.toInt_sub]
  exact Int.bmod_eq_of_le (by have := h.1; omega) (by have := h.2; omega)

theorem toInt_min (a b : Int64) : (min a b).toInt = min a.toInt b.toInt := by
  change (if a ≤ b then a else b).toInt = _
  split
  · next h => rw [min_eq_left (Int64.le_iff_toInt_le.mp h)]
  · next h =>
    rw [Int64.le_iff_toInt_le] at h
    rw [min_eq_right (Int.le_of_lt (Int.not_le.mp h))]

theorem toInt_max (a b : Int64) : (max a b).toInt = max a.toInt b.toInt := by
  change (if a ≤ b then b else a).toInt = _
  split
  · next h => rw [max_eq_right (Int64.le_iff_toInt_le.mp h)]
  · next h =>
    rw [Int64.le_iff_toInt_le] at h
    rw [max_eq_left (Int.le_of_lt (Int.not_le.mp h))]

/-- `a.saturating_add(b)` on bytes. -/
def satAddU8 (a b : UInt8) : UInt8 := if a.toNat + b.toNat < 256 then a + b else 255

/-- `a.saturating_mul(b)` on 16 bits. -/
def satMulU16 (a b : UInt16) : UInt16 := if a.toNat * b.toNat < 65536 then a * b else 65535

end Lib
