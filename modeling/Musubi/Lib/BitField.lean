/-
# Bit fields

A word as a sequence of fields of one width, the first in the high bits: `packFields w vs` is the
number the fields spell, and `field_packFields` reads one of them back, whatever stands in the
bits above.  Signed values live in fields in two's complement: `toField w d` is the low `w` bits
of `d`, and `Int.bmod` undoes it for the values that fit (`bmod_toField`).

Words are natural numbers and reading a field is a quotient and a remainder, so that words of any
machine width can be compared with them by their `toNat`.
-/
import Mathlib.Algebra.Order.Ring.Nat
import Mathlib.Data.List.Basic
import Mathlib.Tactic.Ring

namespace Lib

/-! ## 1. Packing -/

/-- The number that fields of width `w` spell, the first one highest. -/
def packFields (w : ℕ) : List ℕ → ℕ
  | [] => 0
  | v :: vs => v * 2 ^ (w * vs.length) + packFields w vs

theorem width_mul_length_cons (w v : ℕ) (vs : List ℕ) :
    w * (v :: vs).length = w + w * vs.length := by
  rw [List.length_cons, Nat.mul_add, Nat.mul_one, Nat.add_comm]

theorem packFields_lt {w : ℕ} {vs : List ℕ} (h : ∀ v ∈ vs, v < 2 ^ w) :
    packFields w vs < 2 ^ (w * vs.length) := by
  induction vs with
  | nil => simp [packFields]
  | cons v vs ih =>
    rw [List.forall_mem_cons] at h
    have hv : v + 1 ≤ 2 ^ w := h.1
    have hrest := ih h.2
    have hmul := Nat.mul_le_mul_right (2 ^ (w * vs.length)) hv
    rw [packFields, width_mul_length_cons, Nat.pow_add]
    rw [Nat.add_mul, Nat.one_mul] at hmul
    omega

/-- **A field reads back**, whatever `top` stands above the fields. -/
theorem field_packFields {w : ℕ} {vs : List ℕ} (h : ∀ v ∈ vs, v < 2 ^ w) :
    ∀ (top i : ℕ) (hi : i < vs.length),
      (top * 2 ^ (w * vs.length) + packFields w vs) / 2 ^ ((vs.length - 1 - i) * w) % 2 ^ w =
        vs[i] := by
  induction vs with
  | nil =>
    intro top i hi
    exact absurd hi (Nat.not_lt_zero i)
  | cons v vs ih =>
    intro top i hi
    rw [List.forall_mem_cons] at h
    have hlt := packFields_lt h.2
    -- the first field joins what stands above the others
    have hword : top * 2 ^ (w * (v :: vs).length) + packFields w (v :: vs) =
        (top * 2 ^ w + v) * 2 ^ (w * vs.length) + packFields w vs := by
      rw [packFields, width_mul_length_cons, Nat.pow_add]
      ring
    rw [hword]
    cases i with
    | zero =>
      have hshift : ((v :: vs).length - 1 - 0) * w = w * vs.length := by
        rw [List.length_cons, Nat.add_sub_cancel, Nat.sub_zero, Nat.mul_comm]
      rw [hshift, Nat.add_comm, Nat.add_mul_div_right _ _ (Nat.two_pow_pos _),
        Nat.div_eq_of_lt hlt, Nat.zero_add, Nat.add_comm, Nat.add_mul_mod_self_right,
        Nat.mod_eq_of_lt h.1, List.getElem_cons_zero]
    | succ i =>
      have hshift : (v :: vs).length - 1 - (i + 1) = vs.length - 1 - i := by
        rw [List.length_cons]
        omega
      rw [hshift, List.getElem_cons_succ]
      exact ih h.2 _ i _

/-! ## 2. Signed fields -/

/-- The value fits into `w` bits in two's complement. -/
def FitsField (w : ℕ) (d : ℤ) : Prop := -2 ^ (w - 1) ≤ d ∧ d < 2 ^ (w - 1)

instance (w : ℕ) (d : ℤ) : Decidable (FitsField w d) := inferInstanceAs (Decidable (_ ∧ _))

/-- The low `w` bits in two's complement. -/
def toField (w : ℕ) (d : ℤ) : ℕ := (d % 2 ^ w).toNat

theorem toField_lt (w : ℕ) (d : ℤ) : toField w d < 2 ^ w := by
  have hpos : (0 : ℤ) < 2 ^ w := Int.pow_pos (by decide)
  have h1 := Int.emod_nonneg d (Int.ne_of_gt hpos)
  have h2 := Int.emod_lt_of_pos d hpos
  have hcast : ((2 ^ w : ℕ) : ℤ) = 2 ^ w := by push_cast; rfl
  unfold toField
  omega

/-- **A field gives a value that fits back** when its sign is repeated. -/
theorem bmod_toField {w : ℕ} (hw : 1 ≤ w) {d : ℤ} (h : FitsField w d) :
    (toField w d : ℤ).bmod (2 ^ w) = d := by
  have hpos : (0 : ℤ) < 2 ^ w := Int.pow_pos (by decide)
  have hhalf : (2 : ℤ) ^ w = 2 * 2 ^ (w - 1) := by
    rw [← pow_succ', Nat.sub_add_cancel hw]
  have hcast : ((2 ^ w : ℕ) : ℤ) = 2 ^ w := by push_cast; rfl
  obtain ⟨hlo, hhi⟩ := h
  rw [toField, Int.toNat_of_nonneg (Int.emod_nonneg d (Int.ne_of_gt hpos)), ← hcast,
    Int.emod_bmod]
  exact Int.bmod_eq_of_le (by omega) (by omega)

end Lib
