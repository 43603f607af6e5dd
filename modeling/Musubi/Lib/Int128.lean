/-
# Signed 128-bit integers

Each operation computes in the integers and panics where the result is not representable; a
division also panics on a zero divisor.  A client shows that its operands are small, and works in
the integers from there on.

`Fits128` is the range; an operation whose exact result is in it is rewritten to that result.
-/
import Musubi.Lib.Checked
import Mathlib.Algebra.Order.Ring.Abs
import Mathlib.Algebra.Order.Ring.Int

namespace Lib

variable {ε : Type}

/-- What a signed 128-bit integer can be. -/
def Fits128 (v : ℤ) : Prop := -2 ^ 127 ≤ v ∧ v < 2 ^ 127

instance (v : ℤ) : Decidable (Fits128 v) := inferInstanceAs (Decidable (_ ∧ _))

def fit128 (v : ℤ) : Checked ε ℤ := if Fits128 v then .ok v else .error .panic

def sub128 (a b : ℤ) : Checked ε ℤ := fit128 (a - b)

def add128 (a b : ℤ) : Checked ε ℤ := fit128 (a + b)

def mul128 (a b : ℤ) : Checked ε ℤ := fit128 (a * b)

def neg128 (a : ℤ) : Checked ε ℤ := fit128 (-a)

/-- `a.div_euclid(d)`. -/
def divEuclid128 (a d : ℤ) : Checked ε ℤ := if d = 0 then .error .panic else fit128 (a / d)

theorem fit128_eq {v : ℤ} (h : Fits128 v) : (fit128 v : Checked ε ℤ) = .ok v := if_pos h

/-- Small enough in magnitude is representable. -/
theorem fits128_of_abs_le {v bound : ℤ} (h : |v| ≤ bound) (hbound : bound < 2 ^ 127) :
    Fits128 v := by
  have hv := abs_le.mp h
  constructor <;> omega

/-- A quotient by a positive divisor is no larger than the dividend. -/
theorem abs_ediv_le {a d : ℤ} (hd : 0 < d) : |a / d| ≤ |a| := by
  rw [abs_le]
  constructor
  · rw [Int.le_ediv_iff_mul_le hd]
    have ha := neg_abs_le a
    have hmul : |a| * 1 ≤ |a| * d := Int.mul_le_mul_of_nonneg_left hd (abs_nonneg a)
    rw [Int.neg_mul]
    omega
  · rcases le_total 0 a with ha | ha
    · exact (Int.ediv_le_self d ha).trans (le_abs_self a)
    · exact (Int.ediv_le_of_le_mul hd (by
        have hmul : 0 ≤ |a| * d := Int.mul_nonneg (abs_nonneg a) hd.le
        omega))

theorem divEuclid128_eq {a d bound : ℤ} (hd : 0 < d) (ha : |a| ≤ bound)
    (hbound : bound < 2 ^ 127) : (divEuclid128 a d : Checked ε ℤ) = .ok (a / d) := by
  rw [divEuclid128, if_neg hd.ne', fit128_eq]
  exact fits128_of_abs_le ((abs_ediv_le hd).trans ha) hbound

end Lib
