/-
# Integers with a range

64-bit arithmetic that stops where a result does not fit: `i64 v` is `v` when an `i64` holds it,
and a panic otherwise; `checkedU64 n` is `n` when a `u64` holds it, and nothing otherwise.

A client computes in the integers and puts the check around each result.  `InI64` is the condition
under which the check does nothing, and it is what range lemmas are stated in.
-/
import Mathlib.Algebra.Order.Ring.Int
import Musubi.Lib.Checked

namespace Lib

/-- An `i64` holds the integer. -/
def InI64 (v : ℤ) : Prop := -2 ^ 63 ≤ v ∧ v < 2 ^ 63

instance (v : ℤ) : Decidable (InI64 v) := inferInstanceAs (Decidable (_ ∧ _))

theorem inI64_toInt (v : Int64) : InI64 v.toInt := ⟨Int64.le_toInt v, Int64.toInt_lt v⟩

/-- What fits wraps to itself. -/
theorem toInt_ofInt64 {v : ℤ} (h : InI64 v) : (Int64.ofInt v).toInt = v :=
  Int64.toInt_ofInt_of_le h.1 h.2

/-- A wall time is an unsigned word with its top bit clear exactly when it is not negative. -/
theorem toNat_ofInt_lt_iff {v : ℤ} (h : InI64 v) : (UInt64.ofInt v).toNat < 2 ^ 63 ↔ 0 ≤ v := by
  obtain ⟨hlow, hhigh⟩ := h
  rw [UInt64.ofInt, UInt64.toNat_ofNat']
  omega

/-- What a checked operation on `u64`, or on `usize` of that width, makes of its exact result. -/
def checkedU64 (n : ℕ) : Option ℕ := if n < 2 ^ 64 then some n else none

theorem checkedU64_eq {n : ℕ} (h : n < 2 ^ 64) : checkedU64 n = some n := if_pos h

namespace Checked

variable {ε : Type}

/-- The result of an operation on `i64`. -/
def i64 (v : ℤ) : Checked ε ℤ := if InI64 v then .ok v else .error .panic

theorem i64_eq {v : ℤ} (h : InI64 v) : (i64 v : Checked ε ℤ) = .ok v := if_pos h

theorem i64_panics {v : ℤ} (h : ¬ InI64 v) : (i64 v : Checked ε ℤ) = .error .panic := if_neg h

end Checked

end Lib
