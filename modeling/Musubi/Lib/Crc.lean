/-
# Cyclic redundancy checks

A reflected CRC one bit at a time: the lowest bit is shifted out, and the polynomial is added when
it was set.  A step is linear over exclusive or, so eight of them act on the low byte, the index
of a table, and only shift the bits above it.  Any way of computing the entries of the table makes
a loop over bytes that computes the same check.

Width and polynomial are parameters.  A client shows that its own table, or the shifts that stand
for one, has the entries `bitSteps poly 8`, which is a finite check.
-/
import Mathlib.Data.Nat.Notation

namespace Lib.Crc

variable {w : ℕ} (poly : BitVec w)

/-- One bit. -/
def bitStep (crc : BitVec w) : BitVec w :=
  if crc.getLsbD 0 then (crc >>> 1) ^^^ poly else crc >>> 1

/-- Several bits. -/
def bitSteps : ℕ → BitVec w → BitVec w
  | 0, crc => crc
  | n + 1, crc => bitSteps n (bitStep poly crc)

/-- One byte, its lowest bit first. -/
def byteStep (crc : BitVec w) (b : BitVec 8) : BitVec w := bitSteps poly 8 (crc ^^^ b.setWidth w)

/-- The check of a byte string, from a starting value on. -/
def checksum (start : BitVec w) (bytes : List (BitVec 8)) : BitVec w :=
  bytes.foldl (byteStep poly) start

variable {poly}

/-- A step is linear. -/
theorem bitStep_xor (x y : BitVec w) :
    bitStep poly (x ^^^ y) = bitStep poly x ^^^ bitStep poly y := by
  have hcancel (a b : BitVec w) : a ^^^ b = (a ^^^ poly) ^^^ (b ^^^ poly) := by
    rw [BitVec.xor_comm b poly, BitVec.xor_assoc a poly, ← BitVec.xor_assoc poly poly,
      BitVec.xor_self, BitVec.zero_xor]
  unfold bitStep
  rw [BitVec.getLsbD_xor, BitVec.ushiftRight_xor_distrib]
  cases x.getLsbD 0 with
  | false =>
    cases y.getLsbD 0 with
    | false => rfl
    | true => exact BitVec.xor_assoc _ _ _
  | true =>
    cases y.getLsbD 0 with
    | false =>
      show (x >>> 1 ^^^ y >>> 1) ^^^ poly = (x >>> 1 ^^^ poly) ^^^ y >>> 1
      rw [BitVec.xor_assoc, BitVec.xor_comm (y >>> 1), BitVec.xor_assoc]
    | true => exact hcancel _ _

theorem bitSteps_xor (n : ℕ) : ∀ x y : BitVec w,
    bitSteps poly n (x ^^^ y) = bitSteps poly n x ^^^ bitSteps poly n y := by
  induction n with
  | zero =>
    intro x y
    rfl
  | succ n ih =>
    intro x y
    rw [bitSteps, bitStep_xor, ih]
    rfl

/-- Bits that are not set only shift the others. -/
theorem bitSteps_of_low (n : ℕ) : ∀ x : BitVec w, (∀ i < n, x.getLsbD i = false) →
    bitSteps poly n x = x >>> n := by
  induction n with
  | zero =>
    intro x _
    rfl
  | succ n ih =>
    intro x hlow
    have hstep : bitStep poly x = x >>> 1 := by
      unfold bitStep
      rw [hlow 0 (Nat.succ_pos n)]
      rfl
    rw [bitSteps, hstep, ih, ← BitVec.shiftRight_add, Nat.add_comm]
    intro i hi
    rw [BitVec.getLsbD_ushiftRight, Nat.add_comm]
    exact hlow (i + 1) (Nat.succ_lt_succ hi)

/-- **A byte at a time.** The entry of the table for the low byte, and the rest shifted. -/
theorem byteStep_eq_table (crc : BitVec w) (b : BitVec 8) :
    byteStep poly crc b = (crc >>> 8) ^^^ bitSteps poly 8 ((crc.setWidth 8 ^^^ b).setWidth w) := by
  have hsplit : crc ^^^ b.setWidth w =
      ((crc >>> 8) <<< 8) ^^^ (crc.setWidth 8 ^^^ b).setWidth w := by
    refine BitVec.eq_of_getLsbD_eq fun i hi => ?_
    simp only [BitVec.getLsbD_xor, BitVec.getLsbD_setWidth, BitVec.getLsbD_shiftLeft,
      BitVec.getLsbD_ushiftRight]
    by_cases hlow : i < 8
    · simp [hi, hlow]
    · have hb : b.getLsbD i = false := BitVec.getLsbD_of_ge b i (by omega)
      have hshift : 8 + (i - 8) = i := by omega
      simp [hi, hlow, hb, hshift]
  have hhigh : ((crc >>> 8) <<< 8) >>> 8 = crc >>> 8 := by
    refine BitVec.eq_of_getLsbD_eq fun i hi => ?_
    simp only [BitVec.getLsbD_ushiftRight, BitVec.getLsbD_shiftLeft]
    by_cases hbit : 8 + i < w
    · simp [hbit]
    · simp [hbit, BitVec.getLsbD_of_ge crc (8 + i) (by omega)]
  rw [byteStep, hsplit, bitSteps_xor, bitSteps_of_low, hhigh]
  intro i hi
  simp [BitVec.getLsbD_shiftLeft, hi]

theorem checksum_append (start : BitVec w) (xs ys : List (BitVec 8)) :
    checksum poly start (xs ++ ys) = checksum poly (checksum poly start xs) ys :=
  List.foldl_append

end Lib.Crc
