/-
# The quotients of two intervals

The numbers `x / y` with `x` in `[a, b]` and `y` in `[c, d]`, `0 < c`, lie between the least and
the greatest of the four quotients of end points.  With the ends integers, the floor of the least
corner and the ceiling of the greatest are the tightest integers around all of them: the corners
are quotients themselves.

The field is arbitrary, so the same statement serves rationals and reals.  The sign of `x` decides
which end of `[c, d]` gives the extreme, and taking all four corners leaves the case distinction
to `min` and `max`.
-/
import Mathlib.Algebra.Order.Field.Basic
import Mathlib.Algebra.Order.Floor.Ring
import Mathlib.Algebra.Order.Group.MinMax
import Mathlib.Tactic.Linarith
import Mathlib.Tactic.Positivity

namespace Lib

/-! ## 1. Floors and ceilings of integer quotients -/

/-- The integers at or below `a / d`. -/
def floorDiv (a d : ℤ) : ℤ := a / d

/-- The integers at or above `a / d`. -/
def ceilDiv (a d : ℤ) : ℤ := -(-a / d)

variable {K : Type*} [Field K] [LinearOrder K] [IsStrictOrderedRing K]

theorem le_floorDiv_iff {a d k : ℤ} (hd : 0 < d) : k ≤ floorDiv a d ↔ (k : K) ≤ a / d := by
  have hd' : (0 : K) < d := Int.cast_pos.mpr hd
  rw [floorDiv, Int.le_ediv_iff_mul_le hd, le_div_iff₀ hd']
  exact_mod_cast Iff.rfl

theorem ceilDiv_le_iff {a d k : ℤ} (hd : 0 < d) : ceilDiv a d ≤ k ↔ (a : K) / d ≤ k := by
  have hneg : -k ≤ floorDiv (-a) d ↔ ((-k : ℤ) : K) ≤ ((-a : ℤ) : K) / d := le_floorDiv_iff hd
  rw [ceilDiv, neg_le, ← floorDiv, hneg, Int.cast_neg, Int.cast_neg, neg_div, neg_le_neg_iff]

theorem floorDiv_le {a d : ℤ} (hd : 0 < d) : (floorDiv a d : K) ≤ a / d :=
  (le_floorDiv_iff hd).mp (Int.le_refl _)

theorem le_ceilDiv {a d : ℤ} (hd : 0 < d) : (a : K) / d ≤ ceilDiv a d :=
  (ceilDiv_le_iff hd).mp (Int.le_refl _)

/-! ## 2. The corners -/

/-- A quotient is at least one of the two of the least numerator. -/
theorem min_div_le_div {a x c d y : K} (hc : 0 < c) (hx : a ≤ x) (hcy : c ≤ y) (hyd : y ≤ d) :
    min (a / c) (a / d) ≤ x / y := by
  have hy : 0 < y := hc.trans_le hcy
  have hxy : a / y ≤ x / y := div_le_div_of_nonneg_right hx hy.le
  rcases le_total 0 a with ha | ha
  · have hay : a / d ≤ a / y := div_le_div_of_nonneg_left ha hy hyd
    exact (min_le_right _ _).trans (hay.trans hxy)
  · have hay : a / c ≤ a / y := by
      have := div_le_div_of_nonneg_left (neg_nonneg.mpr ha) hc hcy
      rwa [neg_div, neg_div, neg_le_neg_iff] at this
    exact (min_le_left _ _).trans (hay.trans hxy)

theorem div_le_max_div {b x c d y : K} (hc : 0 < c) (hx : x ≤ b) (hcy : c ≤ y) (hyd : y ≤ d) :
    x / y ≤ max (b / c) (b / d) := by
  have h := min_div_le_div (a := -b) (x := -x) hc (neg_le_neg hx) hcy hyd
  rw [neg_div, neg_div, neg_div, min_neg_neg] at h
  exact neg_le_neg_iff.mp h

/-- The floor of the least corner of `[a, b] / [c, d]`. -/
def quotientFloor (a b c d : ℤ) : ℤ :=
  min (min (floorDiv a c) (floorDiv a d)) (min (floorDiv b c) (floorDiv b d))

/-- The ceiling of the greatest corner. -/
def quotientCeil (a b c d : ℤ) : ℤ :=
  max (max (ceilDiv a c) (ceilDiv a d)) (max (ceilDiv b c) (ceilDiv b d))

section Corners

variable {a b c d : ℤ}

theorem quotientFloor_le_div {x y : K} (hc : 0 < c) (hx : (a : K) ≤ x) (hcy : (c : K) ≤ y)
    (hyd : y ≤ d) : (quotientFloor a b c d : K) ≤ x / y := by
  have hc' : (0 : K) < c := Int.cast_pos.mpr hc
  have hd : 0 < d := Int.cast_pos.mp (hc'.trans_le (hcy.trans hyd))
  have hleft : (quotientFloor a b c d : K) ≤ floorDiv a c :=
    Int.cast_le.mpr ((min_le_left _ _).trans (min_le_left _ _))
  have hright : (quotientFloor a b c d : K) ≤ floorDiv a d :=
    Int.cast_le.mpr ((min_le_left _ _).trans (min_le_right _ _))
  refine le_trans (le_min ?_ ?_) (min_div_le_div hc' hx hcy hyd)
  · exact hleft.trans (floorDiv_le hc)
  · exact hright.trans (floorDiv_le hd)

theorem div_le_quotientCeil {x y : K} (hc : 0 < c) (hx : x ≤ b) (hcy : (c : K) ≤ y)
    (hyd : y ≤ d) : x / y ≤ quotientCeil a b c d := by
  have hc' : (0 : K) < c := Int.cast_pos.mpr hc
  have hd : 0 < d := Int.cast_pos.mp (hc'.trans_le (hcy.trans hyd))
  have hleft : (ceilDiv b c : K) ≤ quotientCeil a b c d :=
    Int.cast_le.mpr ((le_max_left _ _).trans (le_max_right _ _))
  have hright : (ceilDiv b d : K) ≤ quotientCeil a b c d :=
    Int.cast_le.mpr ((le_max_right _ _).trans (le_max_right _ _))
  refine (div_le_max_div hc' hx hcy hyd).trans (max_le ?_ ?_)
  · exact (le_ceilDiv hc).trans hleft
  · exact (le_ceilDiv hd).trans hright

/-- **The tightest integer from below.** -/
theorem le_quotientFloor {k : ℤ} (hc : 0 < c) (hab : a ≤ b) (hcd : c ≤ d)
    (h : ∀ x y : K, a ≤ x → x ≤ b → c ≤ y → y ≤ d → k ≤ x / y) : k ≤ quotientFloor a b c d := by
  have hd : 0 < d := hc.trans_le hcd
  have hab' : (a : K) ≤ b := Int.cast_le.mpr hab
  have hcd' : (c : K) ≤ d := Int.cast_le.mpr hcd
  refine le_min (le_min ?_ ?_) (le_min ?_ ?_)
  · exact (le_floorDiv_iff (K := K) hc).mpr (h _ _ le_rfl hab' le_rfl hcd')
  · exact (le_floorDiv_iff (K := K) hd).mpr (h _ _ le_rfl hab' hcd' le_rfl)
  · exact (le_floorDiv_iff (K := K) hc).mpr (h _ _ hab' le_rfl le_rfl hcd')
  · exact (le_floorDiv_iff (K := K) hd).mpr (h _ _ hab' le_rfl hcd' le_rfl)

/-- **The tightest integer from above.** -/
theorem quotientCeil_le {k : ℤ} (hc : 0 < c) (hab : a ≤ b) (hcd : c ≤ d)
    (h : ∀ x y : K, a ≤ x → x ≤ b → c ≤ y → y ≤ d → x / y ≤ k) : quotientCeil a b c d ≤ k := by
  have hd : 0 < d := hc.trans_le hcd
  have hab' : (a : K) ≤ b := Int.cast_le.mpr hab
  have hcd' : (c : K) ≤ d := Int.cast_le.mpr hcd
  refine max_le (max_le ?_ ?_) (max_le ?_ ?_)
  · exact (ceilDiv_le_iff (K := K) hc).mpr (h _ _ le_rfl hab' le_rfl hcd')
  · exact (ceilDiv_le_iff (K := K) hd).mpr (h _ _ le_rfl hab' hcd' le_rfl)
  · exact (ceilDiv_le_iff (K := K) hc).mpr (h _ _ hab' le_rfl le_rfl hcd')
  · exact (ceilDiv_le_iff (K := K) hd).mpr (h _ _ hab' le_rfl hcd' le_rfl)

end Corners

end Lib
