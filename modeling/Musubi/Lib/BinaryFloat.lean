/-
# Binary floating point

The interchange formats of IEEE 754, as numbers.  A format has `fracBits` fraction bits and
`expBits` exponent bits; a MAGNITUDE is what its word holds below the sign bit.  Magnitudes are
ordered as their values are, so a comparison of two numbers is a comparison of their words
(`key`), and rounding a rational (`encode`) is monotone (`encode_mono`): what is bounded by a
representable number stays bounded by it after rounding.

`value` gives the rational of a magnitude and `encode` the magnitude nearest to a rational, ties
to even, infinity where no finite one is nearer.  Rounding a value gives its magnitude back
(`encode_value`), and with monotonicity this is all that an argument about rounded results needs:
there are no error terms here.
-/
import Mathlib.Data.Int.Log
import Mathlib.Data.Rat.Floor
import Mathlib.Tactic.Linarith
import Mathlib.Tactic.NormNum

namespace Lib

/-! ## 1. Rounding to the nearest natural number -/

/-- The natural number nearest to `q`, the even one of two that are equally near. -/
def roundHalfEven (q : ℚ) : ℕ :=
  let n := ⌊q⌋₊
  if 1 / 2 < q - n ∨ (q - n = 1 / 2 ∧ n % 2 = 1) then n + 1 else n

theorem floor_le_roundHalfEven (q : ℚ) : ⌊q⌋₊ ≤ roundHalfEven q := by
  unfold roundHalfEven
  dsimp only
  split <;> omega

theorem roundHalfEven_le_succ (q : ℚ) : roundHalfEven q ≤ ⌊q⌋₊ + 1 := by
  unfold roundHalfEven
  dsimp only
  split <;> omega

@[simp] theorem roundHalfEven_natCast (n : ℕ) : roundHalfEven n = n := by
  have hfloor : ⌊(n : ℚ)⌋₊ = n := Nat.floor_natCast n
  unfold roundHalfEven
  dsimp only
  rw [hfloor, sub_self, if_neg]
  norm_num

/-- **Rounding is monotone.** Between two halves it does not matter which way a tie goes. -/
theorem roundHalfEven_mono {p q : ℚ} (h : p ≤ q) : roundHalfEven p ≤ roundHalfEven q := by
  rcases Nat.lt_or_ge ⌊p⌋₊ ⌊q⌋₊ with hlt | hge
  · calc roundHalfEven p ≤ ⌊p⌋₊ + 1 := roundHalfEven_le_succ p
      _ ≤ ⌊q⌋₊ := hlt
      _ ≤ roundHalfEven q := floor_le_roundHalfEven q
  · have heq : ⌊p⌋₊ = ⌊q⌋₊ := le_antisymm (Nat.floor_le_floor h) hge
    unfold roundHalfEven
    dsimp only
    rw [heq]
    split
    · rename_i hp
      rw [if_pos]
      rcases hp with hp | ⟨hp, hodd⟩
      · exact Or.inl (by linarith)
      · rcases (show p = q ∨ p < q from eq_or_lt_of_le h) with rfl | hpq
        · exact Or.inr ⟨hp, hodd⟩
        · exact Or.inl (by linarith)
    · split <;> omega

/-! ## 2. Formats -/

structure BinaryFormat where
  fracBits : ℕ
  expBits : ℕ

def binary64 : BinaryFormat := ⟨52, 11⟩

def binary32 : BinaryFormat := ⟨23, 8⟩

namespace BinaryFormat

variable (f : BinaryFormat)

/-- The weight of the sign bit. -/
def signBit : ℕ := 2 ^ (f.fracBits + f.expBits)

/-- The magnitude of the infinities.  Larger magnitudes are not numbers. -/
def infinity : ℕ := (2 ^ f.expBits - 1) * 2 ^ f.fracBits

/-- The exponent of the smallest normal number. -/
def minExp : ℤ := 2 - 2 ^ (f.expBits - 1)

/-- The value of a finite magnitude. -/
def value (magnitude : ℕ) : ℚ :=
  let field := magnitude / 2 ^ f.fracBits
  let frac := magnitude % 2 ^ f.fracBits
  let significand := if field = 0 then frac else 2 ^ f.fracBits + frac
  significand * 2 ^ ((max field 1 - 1 : ℕ) + f.minExp - f.fracBits)

/-- The magnitude nearest to `q`, ties to even; from half a unit beyond the largest finite one
on, infinity. -/
def encode (q : ℚ) : ℕ :=
  if q ≤ 0 then 0
  else
    let exp := max (Int.log 2 q) f.minExp
    let significand := roundHalfEven (q / 2 ^ (exp - f.fracBits))
    min ((exp - f.minExp).toNat * 2 ^ f.fracBits + significand) f.infinity

/-- The place of a word in the order of the numbers: the two zeros share one. -/
def key (word : ℕ) : ℤ :=
  if word < f.signBit then word else -(word - f.signBit : ℕ)

/-! ## 3. Rounding is monotone -/

/-- The significand does not run over into the second next exponent. -/
theorem significand_le {q : ℚ} {exp : ℤ} (h : Int.log 2 q ≤ exp) :
    roundHalfEven (q / 2 ^ (exp - f.fracBits)) ≤ 2 ^ (f.fracBits + 1) := by
  have hlt : q < 2 ^ (exp + 1) := by
    refine (Int.lt_zpow_succ_log_self Nat.one_lt_two q).trans_le ?_
    exact zpow_le_zpow_right₀ one_le_two (by omega)
  have hunit : (0 : ℚ) < 2 ^ (exp - f.fracBits) := zpow_pos two_pos _
  have hq : q / 2 ^ (exp - f.fracBits) ≤ (2 ^ (f.fracBits + 1) : ℕ) := by
    rw [div_le_iff₀ hunit]
    refine hlt.le.trans (le_of_eq ?_)
    push_cast
    rw [← zpow_natCast, ← zpow_add₀ two_ne_zero]
    congr 1
    push_cast
    omega
  calc roundHalfEven (q / 2 ^ (exp - f.fracBits))
      ≤ roundHalfEven (2 ^ (f.fracBits + 1) : ℕ) := roundHalfEven_mono hq
    _ = 2 ^ (f.fracBits + 1) := roundHalfEven_natCast _

/-- A normal number uses the whole width of its significand. -/
theorem le_significand {q : ℚ} (hq : 0 < q) :
    2 ^ f.fracBits ≤ roundHalfEven (q / 2 ^ (Int.log 2 q - f.fracBits)) := by
  have hunit : (0 : ℚ) < 2 ^ (Int.log 2 q - f.fracBits) := zpow_pos two_pos _
  have hle : ((2 ^ f.fracBits : ℕ) : ℚ) ≤ q / 2 ^ (Int.log 2 q - f.fracBits) := by
    rw [le_div_iff₀ hunit]
    refine le_trans (le_of_eq ?_) (Int.zpow_log_le_self Nat.one_lt_two hq)
    push_cast
    rw [← zpow_natCast, ← zpow_add₀ two_ne_zero]
    congr 1
    omega
  calc 2 ^ f.fracBits = roundHalfEven (2 ^ f.fracBits : ℕ) := (roundHalfEven_natCast _).symm
    _ ≤ roundHalfEven (q / 2 ^ (Int.log 2 q - f.fracBits)) := roundHalfEven_mono hle

/-- **Rounding to a format is monotone**, across changes of the exponent too. -/
theorem encode_mono {p q : ℚ} (h : p ≤ q) : f.encode p ≤ f.encode q := by
  unfold encode
  by_cases hp : p ≤ 0
  · rw [if_pos hp]
    exact Nat.zero_le _
  have hp0 : 0 < p := lt_of_not_ge hp
  have hq0 : 0 < q := hp0.trans_le h
  rw [if_neg hp, if_neg (not_le.mpr hq0)]
  refine min_le_min_right _ ?_
  have hlog : Int.log 2 p ≤ Int.log 2 q := Int.log_mono_right hp0 h
  rcases eq_or_lt_of_le (max_le_max_right f.minExp hlog) with heq | hlt
  · rw [heq]
    refine Nat.add_le_add_left (roundHalfEven_mono ?_) _
    exact div_le_div_of_nonneg_right h (zpow_pos two_pos _).le
  · -- the larger exponent is worth more than any significand of the smaller one
    have hnormal : max (Int.log 2 q) f.minExp = Int.log 2 q := by
      rcases max_choice (Int.log 2 q) f.minExp with h1 | h1
      · exact h1
      · exact absurd (h1 ▸ hlt) (not_lt.mpr (le_max_right _ _))
    have h1 := f.significand_le (le_max_left (Int.log 2 p) f.minExp)
    have h2 := f.le_significand hq0
    rw [hnormal] at hlt ⊢
    have hsucc : (max (Int.log 2 p) f.minExp - f.minExp).toNat + 1 ≤
        (Int.log 2 q - f.minExp).toNat := by
      have hmin := le_max_right (Int.log 2 p) f.minExp
      omega
    have hmul := Nat.mul_le_mul_right (2 ^ f.fracBits) hsucc
    rw [Nat.add_mul, Nat.one_mul] at hmul
    rw [Nat.pow_succ] at h1
    omega

theorem encode_le_infinity (q : ℚ) : f.encode q ≤ f.infinity := by
  unfold encode
  split
  · exact Nat.zero_le _
  · exact min_le_right _ _

/-! ## 4. Numbers of the format -/

/-- A magnitude is a significand at an exponent, and only the least exponent has significands
that are not of full width. -/
theorem value_parts (magnitude : ℕ) : ∃ exp significand : ℕ,
    f.value magnitude = significand * 2 ^ ((exp : ℤ) + f.minExp - f.fracBits) ∧
      magnitude = exp * 2 ^ f.fracBits + significand ∧ significand < 2 ^ (f.fracBits + 1) ∧
      (exp = 0 ∨ 2 ^ f.fracBits ≤ significand) := by
  have hparts := Nat.div_add_mod magnitude (2 ^ f.fracBits)
  have hfrac := Nat.mod_lt magnitude (Nat.two_pow_pos f.fracBits)
  refine ⟨_, _, rfl, ?_, ?_, ?_⟩
  all_goals
    generalize magnitude / 2 ^ f.fracBits = field at hparts
    generalize magnitude % 2 ^ f.fracBits = frac at hparts hfrac
    rw [Nat.mul_comm] at hparts
  · cases field with
    | zero => simpa using hparts.symm
    | succ n =>
      rw [Nat.succ_mul] at hparts
      simp only [Nat.add_one_ne_zero, if_false, show max (n + 1) 1 - 1 = n by omega]
      omega
  · rw [Nat.pow_succ]
    split <;> omega
  · cases field with
    | zero => exact Or.inl rfl
    | succ n => exact Or.inr (by simp)

/-- The exponent of a number of full width. -/
theorem log_mul_zpow {n e : ℕ} {x : ℤ} (h0 : 2 ^ e ≤ n) (h1 : n < 2 ^ (e + 1)) :
    Int.log 2 ((n : ℚ) * 2 ^ x) = e + x := by
  have hunit : (0 : ℚ) < 2 ^ x := zpow_pos two_pos _
  have hpos : (0 : ℚ) < n := by
    have : 0 < n := (Nat.two_pow_pos e).trans_le h0
    exact_mod_cast this
  refine le_antisymm ?_ ?_
  · refine Int.lt_add_one_iff.mp
      ((Int.lt_zpow_iff_log_lt Nat.one_lt_two (mul_pos hpos hunit)).mp ?_)
    rw [show (e : ℤ) + x + 1 = ((e + 1 : ℕ) : ℤ) + x by push_cast; ring, Nat.cast_ofNat,
      zpow_add₀ two_ne_zero, zpow_natCast]
    refine mul_lt_mul_of_pos_right ?_ hunit
    exact_mod_cast h1
  · refine (Int.zpow_le_iff_le_log Nat.one_lt_two (mul_pos hpos hunit)).mp ?_
    rw [Nat.cast_ofNat, zpow_add₀ two_ne_zero, zpow_natCast]
    refine mul_le_mul_of_nonneg_right ?_ hunit.le
    exact_mod_cast h0

/-- **A number that is rounded to its own format is itself.** -/
theorem encode_value {magnitude : ℕ} (h : magnitude ≤ f.infinity) :
    f.encode (f.value magnitude) = magnitude := by
  obtain ⟨exp, significand, hvalue, hmagnitude, hlt, hfull⟩ := f.value_parts magnitude
  have hunit : (0 : ℚ) < 2 ^ ((exp : ℤ) + f.minExp - f.fracBits) := zpow_pos two_pos _
  rw [hvalue]
  rcases Nat.eq_zero_or_pos significand with rfl | hpos
  · have hexp : exp = 0 := by
      rcases hfull with hexp | hle
      · exact hexp
      · exact absurd hle (Nat.not_le.mpr (Nat.two_pow_pos _))
    subst hexp
    rw [encode, if_pos (by simp), hmagnitude]
    simp
  · have hvaluePos : (0 : ℚ) < significand * 2 ^ ((exp : ℤ) + f.minExp - f.fracBits) :=
      mul_pos (by exact_mod_cast hpos) hunit
    have hlog : max (Int.log 2 ((significand : ℚ) * 2 ^ ((exp : ℤ) + f.minExp - f.fracBits)))
        f.minExp = exp + f.minExp := by
      by_cases hwide : 2 ^ f.fracBits ≤ significand
      · rw [log_mul_zpow hwide hlt]
        omega
      · obtain rfl := hfull.resolve_right hwide
        refine max_eq_right ?_ |>.trans (by simp)
        refine ((Int.lt_zpow_iff_log_lt Nat.one_lt_two hvaluePos).mp ?_).le
        have hsplit : ((2 : ℕ) : ℚ) ^ f.minExp =
            2 ^ f.fracBits * 2 ^ (((0 : ℕ) : ℤ) + f.minExp - f.fracBits) := by
          rw [← zpow_natCast, ← zpow_add₀ two_ne_zero, Nat.cast_ofNat]
          congr 1
          omega
        rw [hsplit]
        refine mul_lt_mul_of_pos_right ?_ hunit
        exact_mod_cast not_le.mp hwide
    rw [encode, if_neg (not_le.mpr hvaluePos), hlog]
    simp only
    rw [mul_div_cancel_right₀ _ hunit.ne', roundHalfEven_natCast]
    have hexp : ((exp : ℤ) + f.minExp - f.minExp).toNat = exp := by omega
    rw [hexp, ← hmagnitude, min_eq_left h]

theorem value_nonneg (magnitude : ℕ) : 0 ≤ f.value magnitude :=
  mul_nonneg (Nat.cast_nonneg _) (zpow_pos two_pos _).le

/-- Larger magnitudes are larger numbers. -/
theorem value_mono {m n : ℕ} (h : m ≤ n) (hn : n ≤ f.infinity) : f.value m ≤ f.value n := by
  by_contra hlt
  have hle := f.encode_mono (not_le.mp hlt).le
  rw [f.encode_value hn, f.encode_value (h.trans hn)] at hle
  exact hlt (by rw [le_antisymm h hle])

/-- What is bounded by a number of the format is bounded by it after rounding. -/
theorem value_encode_le {q : ℚ} {bound : ℕ} (hbound : bound ≤ f.infinity)
    (h : q ≤ f.value bound) : f.value (f.encode q) ≤ f.value bound := by
  have hle := f.encode_mono h
  rw [f.encode_value hbound] at hle
  exact f.value_mono hle hbound

end BinaryFormat

/-- The powers of two from 1 on. -/
theorem binary64_value_two_pow (k : ℕ) : binary64.value ((k + 1023) * 2 ^ 52) = 2 ^ k := by
  have hfield : (k + 1023) * 2 ^ 52 / 2 ^ 52 = k + 1023 := Nat.mul_div_cancel _ (by decide)
  have hfrac : (k + 1023) * 2 ^ 52 % 2 ^ 52 = 0 := Nat.mul_mod_left _ _
  have hexp : ((max (k + 1023) 1 - 1 : ℕ) : ℤ) + binary64.minExp - (52 : ℕ) = (k : ℤ) - 52 := by
    rw [show binary64.minExp = -1022 from rfl, max_eq_left (by omega)]
    push_cast
    omega
  unfold BinaryFormat.value
  dsimp only [binary64] at hexp ⊢
  rw [hfield, hfrac, hexp, if_neg (by omega), zpow_sub₀ two_ne_zero, zpow_natCast]
  norm_num
  exact mul_div_cancel₀ _ (by norm_num)

end Lib
