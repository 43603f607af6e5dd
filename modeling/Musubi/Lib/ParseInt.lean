/-
# Integers in texts

`str::parse` for 64-bit integers: a sign, which an unsigned integer has only as `+`, and decimal
digits; a number that does not fit is refused.  An empty text, or a sign alone, is no number, and
neither is one with white space around it.
-/
import Musubi.Lib.Text

namespace Lib

def parseDigits (ds : List Char) : Option ℕ :=
  if ds ≠ [] ∧ ds.all Char.isDigit then some (Nat.ofDigitChars 10 ds 0) else none

def parseU64 (s : List Char) : Option UInt64 :=
  let digits := match s with
    | '+' :: ds => ds
    | ds => ds
  (parseDigits digits).bind fun n => if n < 2 ^ 64 then some (.ofNat n) else none

def parseI64 (s : List Char) : Option Int64 :=
  let (negative, digits) := match s with
    | '-' :: ds => (true, ds)
    | '+' :: ds => (false, ds)
    | ds => (false, ds)
  (parseDigits digits).bind fun n =>
    if negative then (if n ≤ 2 ^ 63 then some (.ofInt (-n)) else none)
    else if n < 2 ^ 63 then some (.ofNat n)
    else none

/-- A sign needs a digit, and only one sign is taken. -/
example : parseI64 "-12".toList = some (-12) ∧ parseI64 "+".toList = none ∧
    parseU64 "+7".toList = some 7 ∧ parseU64 "-0".toList = none := by decide

theorem parseDigits_repr (n : ℕ) : parseDigits n.repr.toList = some n := by
  have hne : n.repr.toList ≠ [] := by
    rw [Nat.toList_repr]
    exact Nat.toDigits_ne_nil
  have hall : n.repr.toList.all Char.isDigit = true :=
    List.all_eq_true.mpr fun c hc => isDigit_of_mem_repr hc
  rw [parseDigits, if_pos ⟨hne, hall⟩, Nat.toList_repr, Nat.ofDigitChars_ten_toDigits]

/-- Digits are parsed without a sign. -/
theorem parseI64_digits {ds : List Char} {n : ℕ} (hdigits : parseDigits ds = some n)
    (hhead : ∀ c ∈ ds.head?, c.isDigit = true) (h : n < 2 ^ 63) :
    parseI64 ds = some (.ofNat n) := by
  unfold parseI64
  split
  next negative digits hmatch =>
  split at hmatch
  · next ds' heq => exact absurd (hhead '-' rfl) (by decide)
  · next ds' heq => exact absurd (hhead '+' rfl) (by decide)
  · cases hmatch
    rw [hdigits]
    simp only [Option.bind_some, Bool.false_eq_true, if_false, if_pos h]

theorem parseU64_repr (n : UInt64) : parseU64 n.toNat.repr.toList = some n := by
  have hhead : ∀ c ∈ n.toNat.repr.toList.head?, c.isDigit = true :=
    fun c hc => isDigit_of_mem_repr (List.mem_of_mem_head? hc)
  have hlt := n.toNat_lt
  unfold parseU64
  split
  · next ds heq =>
    rw [heq] at hhead
    exact absurd (hhead '+' rfl) (by decide)
  · dsimp only
    rw [parseDigits_repr, Option.bind_some, if_pos hlt, UInt64.ofNat_toNat]

theorem toList_repr_negSucc (n : ℕ) : (Int.negSucc n).repr.toList = '-' :: (n + 1).repr.toList := by
  change ("-" ++ (n + 1).repr).toList = _
  rw [String.toList_append]
  rfl

/-- `parse` undoes `to_string`. -/
theorem parseI64_repr (v : Int64) : parseI64 v.toInt.repr.toList = some v := by
  have hlow := v.le_toInt
  have hhigh := v.toInt_lt
  cases hv : v.toInt with
  | ofNat n =>
    rw [hv] at hhigh
    have htext : (Int.ofNat n).repr.toList = n.repr.toList := rfl
    rw [htext, parseI64_digits (parseDigits_repr n)
      (fun c hc => isDigit_of_mem_repr (List.mem_of_mem_head? hc)) (Int.ofNat_lt.mp hhigh)]
    refine congrArg some (Int64.toInt_inj.mp ?_)
    rw [Int64.toInt_ofNat_of_lt (Int.ofNat_lt.mp hhigh), hv]
    rfl
  | negSucc n =>
    rw [hv] at hlow
    have hle : n + 1 ≤ 2 ^ 63 := by omega
    rw [toList_repr_negSucc]
    simp only [parseI64, parseDigits_repr, Option.bind_some, if_true, if_pos hle]
    refine congrArg some (Int64.toInt_inj.mp ?_)
    rw [Int64.toInt_ofInt_of_le (by omega) (by omega), hv]
    omega

end Lib
