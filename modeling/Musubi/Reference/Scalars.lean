/-
# Scalars of recorded formats

What the readers of binary logs make of a scalar in a record: an integer as a signed one of 64
bits, and a float as the number that it is.  A float that is not finite has no number to be
compared with, and is reported by its bits (`reference-readers/src/lib.rs`, `float32_bits` and
`float64_bits`).

A scalar is taken from its bytes by `word`, a slice of the code that panics where the bytes are
too few; `safe_word` says that it does not where they suffice, which the readers have checked by
then.  The lemmas of the second half say how a word reads back what was written (`word_leBytes`),
and when an unsigned time of 64 bits stays the same number and the same order as a signed one:
below two to the 63rd, which every counter of the formats is.
-/
import Musubi.FloatArith
import Musubi.Lib.Checked
import Musubi.Lib.Saturating
import Musubi.Lib.Text
import Musubi.Reference.Reader

namespace Musubi.Reference

open Lib Lib.Checked Musubi.Core

/-- A byte as the character that it is in Latin-1. -/
def letter (c : UInt8) : Char := .ofNat c.toNat

/-- The first `n` bytes as a number, least significant byte first. -/
def word (n : ℕ) (b : List UInt8) : Checked ReadError ℕ := do
  let bytes ← slice b 0 n
  return ofLeBytes bytes

def FieldValue.float32Bits (raw : ℕ) : FieldValue :=
  let value : F32 := ⟨.ofNat raw⟩
  if value.isFinite then .f64 (.ofF32 value)
  else .text ("nonfinite_float32:0x" ++ hexLower (beBytes 4 raw))

def FieldValue.float64Bits (raw : ℕ) : FieldValue :=
  let value : F64 := ⟨.ofNat raw⟩
  if value.isFinite then .f64 value
  else .text ("nonfinite_float64:0x" ++ hexLower (beBytes 8 raw))

/-- `i64::from` a signed integer of 8 bits. -/
def FieldValue.fromI8 (raw : ℕ) : FieldValue := .i64 (UInt8.ofNat raw).toInt8.toInt64

def FieldValue.fromI16 (raw : ℕ) : FieldValue := .i64 (UInt16.ofNat raw).toInt16.toInt64

def FieldValue.fromI32 (raw : ℕ) : FieldValue := .i64 (UInt32.ofNat raw).toInt32.toInt64

/-- `i64::from` an unsigned integer of up to 32 bits. -/
def FieldValue.fromUnsigned (raw : ℕ) : FieldValue := .i64 (.ofNat raw)

/-- An integer of 64 bits, taken as a signed one. -/
def FieldValue.from64 (raw : ℕ) : FieldValue := .i64 (UInt64.ofNat raw).toInt64

theorem safe_word {n : ℕ} {b : List UInt8} (h : n ≤ b.length) :
    Safe (word n b) fun v => v = ofLeBytes (b.take n) := by
  refine (safe_slice (Nat.zero_le _) h).bind ?_
  rintro bytes ⟨rfl, -⟩
  exact safe_pure rfl

/-- A word is read as it was written, whatever bytes come after it. -/
theorem word_leBytes_append {n v : ℕ} (hv : v < 256 ^ n) (rest : List UInt8) :
    word n (leBytes n v ++ rest) = .ok v := by
  have hslice : (slice (leBytes n v ++ rest) 0 n : Checked ReadError _) = .ok (leBytes n v) := by
    rw [slice_eq (Nat.zero_le n) (by simp), List.drop_zero, Nat.sub_zero, List.take_left']
    exact length_leBytes n v
  rw [word, hslice, ok_bind, ofLeBytes_leBytes, Nat.mod_eq_of_lt hv]
  rfl

theorem word_leBytes {n v : ℕ} (hv : v < 256 ^ n) : word n (leBytes n v) = .ok v := by
  have hword : word n (leBytes n v ++ []) = .ok v := word_leBytes_append hv []
  rwa [List.append_nil] at hword

theorem word_byte (v : UInt8) : word 1 [v] = .ok v.toNat := by
  have hbyte : [v] = leBytes 1 v.toNat := by
    rw [leBytes, Nat.mod_eq_of_lt v.toNat_lt, UInt8.ofNat_toNat]
    rfl
  rw [hbyte, word_leBytes v.toNat_lt]

/-- A time that is not too large, taken as a signed integer. -/
theorem toInt_toInt64 {t : UInt64} (ht : t.toNat < 2 ^ 63) : t.toInt64.toInt = t.toNat := by
  have hcast : t.toInt64 = Int64.ofNat t.toNat := by
    rw [← UInt64.toInt64_ofNat', UInt64.ofNat_toNat]
  rw [hcast, Int64.toInt_ofNat_of_lt ht]

theorem toInt64_le_toInt64 {a b : UInt64} (ha : a.toNat < 2 ^ 63) (hb : b.toNat < 2 ^ 63) :
    a.toInt64 ≤ b.toInt64 ↔ a ≤ b := by
  rw [Int64.le_iff_toInt_le, toInt_toInt64 ha, toInt_toInt64 hb, UInt64.le_iff_toNat_le]
  exact Int.ofNat_le

theorem toUInt64_max_toInt64 {t : UInt64} (ht : t.toNat < 2 ^ 63) :
    (max t.toInt64 0).toUInt64 = t := by
  have hmax : max t.toInt64 0 = t.toInt64 := by
    refine Int64.toInt_inj.mp ?_
    rw [toInt_max, toInt_toInt64 ht]
    exact max_eq_left (Int.natCast_nonneg _)
  rw [hmax]
  rfl

theorem toInt64_ofInt (v : ℤ) : (UInt64.ofInt v).toInt64 = .ofInt v := by
  have hcast : (((v % 2 ^ 64).toNat : ℕ) : ℤ) = v % 2 ^ 64 := by omega
  apply Int64.toInt_inj.mp
  rw [UInt64.ofInt, UInt64.toInt64_ofNat', Int64.toInt_ofNat', Int64.toInt_ofInt, hcast]
  exact Int.emod_bmod v (2 ^ 64)

/-- An integer among the fields. -/
def integer (fields : Fields) (name : String) : Option Int64 :=
  match (fields.find? fun entry => entry.1 = name).map Prod.snd with
  | some (.i64 v) => some v
  | _ => none

theorem integer_eq_some {fields : Fields} {name : String} {v : Int64}
    (hnodup : (fields.map Prod.fst).Nodup) (hmem : (name, FieldValue.i64 v) ∈ fields) :
    integer fields name = some v := by
  have hsome : (fields.find? fun entry => entry.1 = name).isSome = true :=
    List.find?_isSome.mpr ⟨_, hmem, decide_eq_true rfl⟩
  obtain ⟨entry, hentry⟩ := Option.isSome_iff_exists.mp hsome
  have hname : entry.1 = name :=
    of_decide_eq_true
      (List.find?_some (p := fun entry : String × FieldValue => decide (entry.1 = name)) hentry)
  obtain rfl : entry = (name, .i64 v) :=
    List.inj_on_of_nodup_map hnodup (List.mem_of_find?_eq_some hentry) hmem hname
  rw [integer, hentry]
  rfl

/-- A quiet NaN by its bits, and a number. -/
example : FieldValue.float32Bits 0x7FC00000 = .text "nonfinite_float32:0x7fc00000" ∧
    FieldValue.float32Bits 0x3F000000 = .f64 (.ofRat (1 / 2)) := by decide +kernel

end Musubi.Reference
