/-
# Integers as bytes

The two fixed-width byte orders: `leBytes n v` are the `n` low-order bytes of `v`, least
significant first, and `beBytes n v` the same bytes most significant first.  `ofLeBytes` and
`ofBeBytes` read them back, so below `256 ^ n` no two numbers share an encoding.

Numbers that are too large are cut, as by a cast to the width, so the lemmas about reading back
say `% 256 ^ n` where they assume nothing.
-/
import Mathlib.Algebra.Order.Ring.Nat
import Mathlib.Data.List.Basic
import Mathlib.Tactic.Ring

namespace Lib

/-- The `n` low-order bytes of `v`, least significant first. -/
def leBytes : ℕ → ℕ → List UInt8
  | 0, _ => []
  | n + 1, v => UInt8.ofNat (v % 256) :: leBytes n (v / 256)

/-- The number a little-endian byte string spells. -/
def ofLeBytes : List UInt8 → ℕ
  | [] => 0
  | b :: bs => b.toNat + 256 * ofLeBytes bs

/-- The `n` low-order bytes of `v`, most significant first. -/
def beBytes (n v : ℕ) : List UInt8 := (leBytes n v).reverse

/-- The number a big-endian byte string spells. -/
def ofBeBytes (bs : List UInt8) : ℕ := ofLeBytes bs.reverse

@[simp] theorem length_leBytes (n : ℕ) : ∀ v : ℕ, (leBytes n v).length = n := by
  induction n with
  | zero =>
    intro v
    rfl
  | succ n ih =>
    intro v
    rw [leBytes, List.length_cons, ih]

@[simp] theorem length_beBytes (n v : ℕ) : (beBytes n v).length = n := by
  rw [beBytes, List.length_reverse, length_leBytes]

/-- Reading back what was written, as far as the width goes. -/
theorem ofLeBytes_leBytes (n : ℕ) : ∀ v : ℕ, ofLeBytes (leBytes n v) = v % 256 ^ n := by
  induction n with
  | zero =>
    intro v
    rw [leBytes, ofLeBytes, Nat.pow_zero, Nat.mod_one]
  | succ n ih =>
    intro v
    have h256 : (UInt8.ofNat (v % 256)).toNat = v % 256 := by
      rw [UInt8.toNat_ofNat']
      exact Nat.mod_eq_of_lt (Nat.mod_lt v (by decide))
    rw [leBytes, ofLeBytes, ih, h256, Nat.pow_succ, Nat.mul_comm _ 256, Nat.mod_mul]

theorem ofBeBytes_beBytes (n v : ℕ) : ofBeBytes (beBytes n v) = v % 256 ^ n := by
  rw [ofBeBytes, beBytes, List.reverse_reverse, ofLeBytes_leBytes]

/-- **Fixed-width encodings do not collide** below `256 ^ n`. -/
theorem leBytes_inj {n v w : ℕ} (hv : v < 256 ^ n) (hw : w < 256 ^ n)
    (h : leBytes n v = leBytes n w) : v = w := by
  have h1 := congrArg ofLeBytes h
  rwa [ofLeBytes_leBytes, ofLeBytes_leBytes, Nat.mod_eq_of_lt hv, Nat.mod_eq_of_lt hw] at h1

/-- The number that bytes spell is below the power of their count. -/
theorem ofLeBytes_lt (bs : List UInt8) : ofLeBytes bs < 256 ^ bs.length := by
  induction bs with
  | nil => decide
  | cons b bs ih =>
    have hb := b.toNat_lt
    rw [ofLeBytes, List.length_cons, Nat.pow_succ]
    omega

/-- Writing what was read. -/
theorem leBytes_ofLeBytes (bs : List UInt8) : leBytes bs.length (ofLeBytes bs) = bs := by
  induction bs with
  | nil => rfl
  | cons b bs ih =>
    have hb := b.toNat_lt
    have hmod : (b.toNat + 256 * ofLeBytes bs) % 256 = b.toNat := by omega
    have hdiv : (b.toNat + 256 * ofLeBytes bs) / 256 = ofLeBytes bs := by omega
    rw [List.length_cons, ofLeBytes, leBytes, hmod, hdiv, ih, UInt8.ofNat_toNat]

end Lib
