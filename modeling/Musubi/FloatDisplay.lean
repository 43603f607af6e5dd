/-
# Floating-point numbers as texts

`to_string` on an `f64` and an `f32`: the shortest decimal fraction that is read back as the
number, written out without an exponent.  Of two that are equally short the nearer one is taken,
and the larger one of two that are equally near.

The digits are looked for one by one (`shortestFrom`), with reading back as the test.  The search
ends at the latest where the fraction is the number itself: a number of a binary format is a
decimal fraction with as many places as it has binary ones (`places`), so a bound on the search is
known before it starts.

What the writers and readers of tables rest on is the last section: a finite number survives the
way through its text, with its sign, at either precision.  Whether the text is the shortest one
plays no part in that; that it is READ as the number does, and the test of the search is what
gives it.
-/
import Mathlib.Data.Bool.AllAny
import Musubi.FloatText
import Musubi.Lib.JsonText
import Musubi.Lib.Text

namespace Musubi

open Lib

/-! ## 1. Shortest fractions -/

/-- `digits * 10 ^ exponent`. -/
structure Decimal where
  digits : ℕ
  exponent : ℤ
deriving DecidableEq, Repr

def Decimal.toRat (d : Decimal) : ℚ := d.digits * 10 ^ d.exponent

/-- The fraction is read as the number of that magnitude. -/
def reads (f : BinaryFormat) (magnitude : ℕ) (d : Decimal) : Bool :=
  f.encode d.toRat = magnitude

/-- The fraction of the fewest digits from the `n`-th on, below `10 ^ point`. -/
def shortestFrom (f : BinaryFormat) (magnitude : ℕ) (point : ℤ) : ℕ → ℕ → Decimal
  | 0, n => ⟨⌊f.value magnitude / 10 ^ (point - n)⌋₊, point - n⟩
  | rounds + 1, n =>
    let v := f.value magnitude
    let down : Decimal := ⟨⌊v / 10 ^ (point - n)⌋₊, point - n⟩
    let up : Decimal := ⟨down.digits + 1, point - n⟩
    match reads f magnitude down, reads f magnitude up with
    | true, true => if up.toRat - v ≤ v - down.toRat then up else down
    | true, false => down
    | false, true => up
    | false, false => shortestFrom f magnitude point rounds (n + 1)

/-- The decimal places after which a number of the format has no more digits. -/
def places (f : BinaryFormat) : ℤ := f.fracBits - f.minExp

def shortest (f : BinaryFormat) (magnitude : ℕ) : Decimal :=
  let point := Int.log 10 (f.value magnitude) + 1
  shortestFrom f magnitude point (point + places f).toNat 0

/-! ## 2. Texts -/

/-- The digits without an exponent. -/
def Decimal.display (d : Decimal) : List Char :=
  let digits := d.digits.repr.toList
  if 0 ≤ d.exponent then digits ++ List.replicate d.exponent.toNat '0'
  else
    let fraction := (-d.exponent).toNat
    if fraction < digits.length then
      digits.take (digits.length - fraction) ++ '.' :: digits.drop (digits.length - fraction)
    else '0' :: '.' :: (List.replicate (fraction - digits.length) '0' ++ digits)

/-- The text of a magnitude of a finite number, with its sign. -/
def displayFinite (f : BinaryFormat) (negative : Bool) (magnitude : ℕ) : List Char :=
  (if negative then ['-'] else []) ++
    if magnitude = 0 then ['0'] else (shortest f magnitude).display

/-- `to_string` of a finite number. -/
def F64.display (v : F64) : List Char := displayFinite binary64 v.isNegative v.magnitude

def F32.isNegative (v : F32) : Bool := binary32.signBit ≤ v.bits.toNat

def F32.display (v : F32) : List Char := displayFinite binary32 v.isNegative v.magnitude

/-- The text of a magnitude that need not be finite. -/
def displayText (f : BinaryFormat) (negative : Bool) (magnitude : ℕ) : String :=
  if f.infinity < magnitude then "NaN"
  else if magnitude = f.infinity then if negative then "-inf" else "inf"
  else .ofList (displayFinite f negative magnitude)

/-- `to_string`. -/
def F64.toText (v : F64) : String := displayText binary64 v.isNegative v.magnitude

def F32.toText (v : F32) : String := displayText binary32 v.isNegative v.magnitude

/-- `str::parse::<f32>`. -/
def F32.parse (s : String) : Option F32 :=
  let (negative, body) := splitSign s.toList
  let word := String.ofList (body.map Char.toLower)
  let signed (magnitude : ℕ) : F32 :=
    ⟨UInt32.ofNat ((if negative then binary32.signBit else 0) + magnitude)⟩
  if word = "inf" ∨ word = "infinity" then some (signed binary32.infinity)
  else if word = "nan" then some ⟨0x7FC00000⟩
  else (decimalNumber body).map fun q =>
    if q = 0 then signed 0 else .ofRat (if negative then -q else q)

/-- A number that is not its fraction, the least ones, and the zero below zero. -/
example : F64.display (.ofRat (1 / 10)) = "0.1".toList ∧
    F64.display ⟨1⟩ = '0' :: '.' :: (List.replicate 323 '0' ++ ['5']) ∧
    F64.display (.ofRat (10 ^ 23)) = "100000000000000000000000".toList ∧
    F32.display (.ofRat (-16777216)) = "-16777216".toList ∧
    F32.display ⟨0x80000000⟩ = "-0".toList := by decide +kernel

/-- Only digits and a point are written for a fraction. -/
theorem mem_display {d : Decimal} {c : Char} (h : c ∈ d.display) : c.isDigit = true ∨ c = '.' := by
  have hdigits {c : Char} (h : c ∈ d.digits.repr.toList) : c.isDigit = true ∨ c = '.' :=
    Or.inl (isDigit_of_mem_repr h)
  have hzeros {n : ℕ} {c : Char} (h : c ∈ List.replicate n '0') : c.isDigit = true ∨ c = '.' := by
    rw [List.eq_of_mem_replicate h]
    exact Or.inl rfl
  unfold Decimal.display at h
  dsimp only at h
  split at h
  · rcases List.mem_append.mp h with h | h
    · exact hdigits h
    · exact hzeros h
  split at h
  · rcases List.mem_append.mp h with h | h
    · exact hdigits (List.mem_of_mem_take h)
    · rcases List.mem_cons.mp h with rfl | h
      · exact Or.inr rfl
      · exact hdigits (List.mem_of_mem_drop h)
  · rcases List.mem_cons.mp h with rfl | h
    · exact Or.inl rfl
    rcases List.mem_cons.mp h with rfl | h
    · exact Or.inr rfl
    rcases List.mem_append.mp h with h | h
    · exact hzeros h
    · exact hdigits h

/-- What is not written for a fraction is not written for a number, unless it is a sign or a
letter. -/
theorem notMem_displayText {c : Char} (hdigit : c.isDigit = false)
    (hother : c ∉ ".-NaNinf".toList) (f : BinaryFormat) (negative : Bool) (magnitude : ℕ) :
    c ∉ (displayText f negative magnitude).toList := by
  have hword {word : String} (h : word.toList ⊆ ".-NaNinf".toList) : c ∉ word.toList :=
    fun hc => hother (h hc)
  unfold displayText
  split
  · exact hword (by decide)
  split
  · split
    · exact hword (by decide)
    · exact hword (by decide)
  rw [String.toList_ofList, displayFinite]
  intro hc
  rcases List.mem_append.mp hc with hc | hc
  · split at hc
    · rw [List.mem_singleton.mp hc] at hother
      exact hother (by decide)
    · cases hc
  split at hc
  · rw [List.mem_singleton.mp hc] at hdigit
    cases hdigit
  · rcases mem_display hc with hc | rfl
    · rw [hdigit] at hc
      cases hc
    · exact hother (by decide)

/-! ## 3. The number is read back -/

section

variable {f : BinaryFormat} {magnitude : ℕ}

variable (magnitude) in
/-- With so many places a number has no more digits. -/
theorem exists_natCast_of_places {point : ℤ} {n : ℕ} (hplaces : 0 ≤ places f)
    (h : places f ≤ n - point) : ∃ k : ℕ, f.value magnitude / 10 ^ (point - n) = k := by
  obtain ⟨exp, significand, hvalue, -, -, -⟩ := f.value_parts magnitude
  obtain ⟨a, ha⟩ : ∃ a : ℕ, (exp : ℤ) + f.minExp - f.fracBits + (n - point) = a :=
    ⟨((exp : ℤ) + f.minExp - f.fracBits + (n - point)).toNat, by
      unfold places at h
      omega⟩
  obtain ⟨b, hb⟩ : ∃ b : ℕ, (n : ℤ) - point = b := ⟨((n : ℤ) - point).toNat, by omega⟩
  refine ⟨significand * 2 ^ a * 5 ^ b, ?_⟩
  have hten : (10 : ℚ) ^ (point - n) = (2 ^ ((n : ℤ) - point) * 5 ^ ((n : ℤ) - point))⁻¹ := by
    rw [← mul_zpow, ← zpow_neg]
    norm_num
  rw [hvalue, hten, div_inv_eq_mul]
  push_cast
  rw [← zpow_natCast 2 a, ← ha, zpow_add₀ two_ne_zero, ← zpow_natCast 5 b, ← hb]
  ring

theorem reads_shortestFrom (point : ℤ) (hplaces : 0 ≤ places f) (hfinite : magnitude ≤ f.infinity)
    (rounds : ℕ) : ∀ n : ℕ, places f ≤ n + rounds - point →
      reads f magnitude (shortestFrom f magnitude point rounds n) = true := by
  induction rounds with
  | zero =>
    intro n h
    obtain ⟨k, hk⟩ := exists_natCast_of_places magnitude (n := n) hplaces
      (by simpa using h)
    have hten : (0 : ℚ) < 10 ^ (point - n) := zpow_pos (by norm_num) _
    rw [shortestFrom, reads, decide_eq_true_iff, Decimal.toRat]
    simp only [hk, Nat.floor_natCast]
    rw [← hk, div_mul_cancel₀ _ hten.ne', f.encode_value hfinite]
  | succ rounds ih =>
    intro n h
    simp only [shortestFrom]
    split
    · next hdown hup =>
      split
      · exact hup
      · exact hdown
    · next hdown _ => exact hdown
    · next _ hup => exact hup
    · exact ih (n + 1) (by push_cast at h ⊢; omega)

/-- **The shortest fraction is read as the number.** The search stops only where reading gives the
number, and it stops, as the exact fraction is within its bound. -/
theorem reads_shortest (hplaces : 0 ≤ places f) (hfinite : magnitude ≤ f.infinity) :
    f.encode (shortest f magnitude).toRat = magnitude := by
  have h := reads_shortestFrom (Int.log 10 (f.value magnitude) + 1) hplaces hfinite
    (Int.log 10 (f.value magnitude) + 1 + places f).toNat 0 (by push_cast; omega)
  exact of_decide_eq_true h

/-- A number other than zero has a digit. -/
theorem digits_shortest_pos (hplaces : 0 ≤ places f) (hfinite : magnitude ≤ f.infinity)
    (hpos : 0 < magnitude) : 0 < (shortest f magnitude).digits := by
  by_contra hzero
  have hread := reads_shortest hplaces hfinite
  rw [Decimal.toRat, Nat.eq_zero_of_not_pos hzero, Nat.cast_zero, zero_mul, BinaryFormat.encode,
    if_pos (le_refl _)] at hread
  omega

end

/-! ## 4. The fraction is read back -/

theorem decimalDigits_eq (ds : List Char) : decimalDigits ds = Nat.ofDigitChars 10 ds 0 := by
  rw [Nat.ofDigitChars_eq_foldl]
  rfl

theorem takeWhile_digits {a : List Char} (rest : List Char) (ha : ∀ c ∈ a, c.isDigit = true)
    (hrest : ∀ c ∈ rest.head?, c.isDigit = false) :
    (a ++ rest).takeWhile Char.isDigit = a ∧ (a ++ rest).dropWhile Char.isDigit = rest := by
  have hstop : rest.takeWhile Char.isDigit = [] ∧ rest.dropWhile Char.isDigit = rest := by
    cases rest with
    | nil => exact ⟨rfl, rfl⟩
    | cons c rest =>
      have hc : ¬ c.isDigit = true := by simp [hrest c rfl]
      exact ⟨List.takeWhile_cons_of_neg hc, List.dropWhile_cons_of_neg hc⟩
  rw [List.takeWhile_append_of_pos ha, List.dropWhile_append_of_pos ha, hstop.1, hstop.2,
    List.append_nil]
  exact ⟨rfl, rfl⟩

/-- Digits alone. -/
theorem decimalNumber_digits {a : List Char} (ha : ∀ c ∈ a, c.isDigit = true) (hne : a ≠ []) :
    decimalNumber a = some (decimalDigits a : ℚ) := by
  obtain ⟨htake, hdrop⟩ := takeWhile_digits [] ha (fun _ h => nomatch h)
  rw [List.append_nil] at htake hdrop
  unfold decimalNumber
  rw [htake, hdrop]
  simp [hne, decimalExponent]

/-- Digits with a point among them are the number without the point, divided by ten for every
digit behind it. -/
theorem decimalNumber_point {a b : List Char} (ha : ∀ c ∈ a, c.isDigit = true) (hne : a ≠ [])
    (hb : ∀ c ∈ b, c.isDigit = true) :
    decimalNumber (a ++ '.' :: b) = some (decimalDigits (a ++ b) / 10 ^ b.length : ℚ) := by
  obtain ⟨htake, hdrop⟩ := takeWhile_digits ('.' :: b) ha (by
    intro c hc
    obtain rfl := Option.some.inj hc
    rfl)
  obtain ⟨htake', hdrop'⟩ := takeWhile_digits [] hb (fun _ h => nomatch h)
  rw [List.append_nil] at htake' hdrop'
  unfold decimalNumber
  rw [htake, hdrop]
  simp [hne, htake', hdrop', decimalExponent]

/-- How a fraction is written: digits without a zero in front, and behind a point as many as the
exponent says. -/
theorem display_cases {d : Decimal} (hpos : 0 < d.digits) :
    (JsonText.IsInt d.display ∧ d.display ≠ [] ∧ (∀ c ∈ d.display, c.isDigit = true) ∧
        (decimalDigits d.display : ℚ) = d.toRat) ∨
      ∃ a b, d.display = a ++ '.' :: b ∧ JsonText.IsInt a ∧ JsonText.IsDigits b ∧ a ≠ [] ∧
        (∀ c ∈ a, c.isDigit = true) ∧ (decimalDigits (a ++ b) / 10 ^ b.length : ℚ) = d.toRat := by
  obtain ⟨c, t, hct, hc⟩ := exists_head_repr hpos
  have hdigits : ∀ c ∈ d.digits.repr.toList, c.isDigit = true := fun c hc => isDigit_of_mem_repr hc
  have hvalue : decimalDigits d.digits.repr.toList = d.digits := by
    rw [decimalDigits_eq, Nat.toList_repr, Nat.ofDigitChars_ten_toDigits]
  have hzeros {n : ℕ} : ∀ c ∈ List.replicate n '0', c.isDigit = true := fun c hc => by
    rw [List.eq_of_mem_replicate hc]
    rfl
  unfold Decimal.display
  simp only
  split
  · next hexp =>
    refine Or.inl ⟨?_, ?_, ?_, ?_⟩
    · rw [hct] at hdigits ⊢
      rw [List.forall_mem_cons] at hdigits
      refine .digits hdigits.1 hc fun c hmem => ?_
      rcases List.mem_append.mp hmem with hmem | hmem
      · exact hdigits.2 c hmem
      · exact hzeros c hmem
    · rw [hct]
      exact List.cons_ne_nil _ _
    · exact List.forall_mem_append.mpr ⟨hdigits, hzeros⟩
    · obtain ⟨e, he⟩ : ∃ e : ℕ, d.exponent = e := ⟨d.exponent.toNat, by omega⟩
      have hdisplay : decimalDigits (d.digits.repr.toList ++ List.replicate e '0') =
          10 ^ e * d.digits := by
        rw [decimalDigits_eq, Nat.ofDigitChars_append, Nat.ofDigitChars_replicate_zero,
          ← decimalDigits_eq, hvalue]
      rw [he, Int.toNat_natCast, hdisplay, Decimal.toRat, he, zpow_natCast]
      push_cast
      ring
  · next hexp =>
    refine Or.inr ?_
    obtain ⟨p, hp, hp0⟩ : ∃ p : ℕ, (-d.exponent).toNat = p ∧ d.exponent = -p :=
      ⟨(-d.exponent).toNat, rfl, by omega⟩
    have hppos : 0 < p := by omega
    have hrat : d.toRat = d.digits / 10 ^ p := by
      rw [Decimal.toRat, hp0, zpow_neg, zpow_natCast, div_eq_mul_inv]
    rw [hp]
    split
    · next hlong =>
      obtain ⟨k, hk⟩ : ∃ k, d.digits.repr.toList.length - p = k + 1 :=
        ⟨d.digits.repr.toList.length - p - 1, by omega⟩
      rw [hk]
      refine ⟨_, _, rfl, ?_, ⟨?_, ?_⟩, ?_, ?_, ?_⟩
      · rw [hct] at hdigits ⊢
        rw [List.forall_mem_cons] at hdigits
        exact .digits hdigits.1 hc fun c hmem => hdigits.2 c (List.mem_of_mem_take hmem)
      · intro hnil
        have hlength := congrArg List.length hnil
        rw [List.length_drop, List.length_nil] at hlength
        omega
      · exact fun c hmem => hdigits c (List.mem_of_mem_drop hmem)
      · rw [hct, List.take_succ_cons]
        exact List.cons_ne_nil _ _
      · exact fun c hmem => hdigits c (List.mem_of_mem_take hmem)
      · have hlength : (d.digits.repr.toList.drop (k + 1)).length = p := by
          rw [List.length_drop]
          omega
        rw [List.take_append_drop, hvalue, hlength, hrat]
    · next hshort =>
      refine ⟨['0'], _, rfl, .zero, ⟨?_, ?_⟩, List.cons_ne_nil _ _,
        List.all_iff_forall_prop.mp (by decide), ?_⟩
      · rw [hct]
        simp
      · exact List.forall_mem_append.mpr ⟨hzeros, hdigits⟩
      · have hlength : (List.replicate (p - d.digits.repr.toList.length) '0' ++
            d.digits.repr.toList).length = p := by
          rw [List.length_append, List.length_replicate]
          omega
        have hdisplay : decimalDigits (['0'] ++ (List.replicate (p - d.digits.repr.toList.length)
            '0' ++ d.digits.repr.toList)) = d.digits := by
          rw [decimalDigits_eq, Nat.ofDigitChars_append, Nat.ofDigitChars_append,
            Nat.ofDigitChars_replicate_zero]
          have hzero : Nat.ofDigitChars 10 ['0'] 0 = 0 := rfl
          rw [hzero, Nat.mul_zero, ← decimalDigits_eq, hvalue]
        rw [hdisplay, hlength, hrat]

/-! ## 5. Finite numbers -/

/-- The text of a finite number: a sign, and a number that is read as the magnitude. -/
structure ReadsAs (f : BinaryFormat) (magnitude : ℕ) (body : List Char) (q : ℚ) : Prop where
  first : ∃ c t, body = c :: t ∧ c.isDigit = true
  isNumber : JsonText.IsNumber body ∧ JsonText.IsNumber ('-' :: body)
  value : decimalNumber body = some q
  nonneg : 0 ≤ q
  zero : q = 0 ↔ magnitude = 0
  encode : f.encode q = magnitude

theorem isNumber_of_isInt {a b : List Char} (ha : JsonText.IsInt a) (hb : JsonText.IsFraction b) :
    JsonText.IsNumber (a ++ b) ∧ JsonText.IsNumber ('-' :: (a ++ b)) :=
  ⟨⟨[], a, b, [], Or.inl rfl, ha, hb, .none, by simp⟩,
    ⟨['-'], a, b, [], Or.inr rfl, ha, hb, .none, by simp⟩⟩

section

variable {f : BinaryFormat} {magnitude : ℕ}

theorem readsAs_zero (f : BinaryFormat) : ReadsAs f 0 ['0'] 0 where
  first := ⟨'0', [], rfl, rfl⟩
  isNumber := isNumber_of_isInt (b := []) .zero .none
  value := by
    rw [decimalNumber_digits (List.all_iff_forall_prop.mp (by decide)) (List.cons_ne_nil _ _)]
    rfl
  nonneg := le_refl _
  zero := iff_of_true rfl rfl
  encode := if_pos (le_refl _)

theorem readsAs_shortest (hplaces : 0 ≤ places f) (hfinite : magnitude ≤ f.infinity)
    (hpos : 0 < magnitude) :
    ReadsAs f magnitude (shortest f magnitude).display (shortest f magnitude).toRat := by
  have hdigits := digits_shortest_pos hplaces hfinite hpos
  have hrat : 0 < (shortest f magnitude).toRat :=
    mul_pos (Nat.cast_pos.mpr hdigits) (zpow_pos (by norm_num) _)
  have hfirst {a b : List Char} (hne : a ≠ []) (ha : ∀ c ∈ a, c.isDigit = true) :
      ∃ c t, a ++ b = c :: t ∧ c.isDigit = true := by
    obtain ⟨c, t, rfl⟩ := List.exists_cons_of_ne_nil hne
    exact ⟨c, t ++ b, rfl, ha c List.mem_cons_self⟩
  have hspec : (∃ c t, (shortest f magnitude).display = c :: t ∧ c.isDigit = true) ∧
      (JsonText.IsNumber (shortest f magnitude).display ∧
        JsonText.IsNumber ('-' :: (shortest f magnitude).display)) ∧
      decimalNumber (shortest f magnitude).display = some (shortest f magnitude).toRat := by
    rcases display_cases hdigits with ⟨hint, hne, hall, hvalue⟩ |
      ⟨a, b, hab, hint, hb, hne, hall, hvalue⟩
    · refine ⟨?_, ?_, by rw [decimalNumber_digits hall hne, hvalue]⟩
      · simpa using hfirst (b := []) hne hall
      · simpa using isNumber_of_isInt (b := []) hint .none
    · rw [hab]
      exact ⟨hfirst hne hall, isNumber_of_isInt hint (.digits hb),
        by rw [decimalNumber_point hall hne hb.2, hvalue]⟩
  exact
    { first := hspec.1
      isNumber := hspec.2.1
      value := hspec.2.2
      nonneg := hrat.le
      zero := iff_of_false hrat.ne' hpos.ne'
      encode := reads_shortest hplaces hfinite }

/-- **A finite number is read back from its text**, up to the sign, which stands in front. -/
theorem displayFinite_eq (negative : Bool) (hplaces : 0 ≤ places f)
    (hfinite : magnitude ≤ f.infinity) : ∃ body q, ReadsAs f magnitude body q ∧
      displayFinite f negative magnitude = (if negative then ['-'] else []) ++ body := by
  unfold displayFinite
  by_cases hzero : magnitude = 0
  · rw [if_pos hzero, hzero]
    exact ⟨_, _, readsAs_zero f, rfl⟩
  · rw [if_neg hzero]
    exact ⟨_, _, readsAs_shortest hplaces hfinite (Nat.pos_of_ne_zero hzero), rfl⟩

end

section

variable {f : BinaryFormat} {magnitude : ℕ} {body : List Char} {q : ℚ}

theorem ReadsAs.splitSign_eq (h : ReadsAs f magnitude body q) (negative : Bool) :
    splitSign ((if negative then ['-'] else []) ++ body) = (negative, body) := by
  obtain ⟨c, t, rfl, hc⟩ := h.first
  cases negative with
  | true => rfl
  | false =>
    have hminus : c ≠ '-' := by
      rintro rfl
      cases hc
    have hplus : c ≠ '+' := by
      rintro rfl
      cases hc
    simp only [Bool.false_eq_true, if_false, List.nil_append]
    unfold splitSign
    split
    · next heq => exact absurd (List.cons.inj heq).1 hminus
    · next heq => exact absurd (List.cons.inj heq).1 hplus
    · rfl

/-- A text that begins with a digit is no word. -/
theorem ReadsAs.ne_word (h : ReadsAs f magnitude body q) {word : String}
    (hword : word.toList.head?.any Char.isDigit = false) :
    String.ofList (body.map Char.toLower) ≠ word := by
  obtain ⟨c, t, rfl, hc⟩ := h.first
  rintro rfl
  have hlower : c.toLower = c := by
    have hnot : ¬ (c.val ≥ 'A'.val ∧ c.val ≤ 'Z'.val) := by
      simp only [Char.isDigit, Bool.and_eq_true, decide_eq_true_eq, UInt32.le_iff_toNat_le] at hc
      intro hupper
      have hge := UInt32.le_iff_toNat_le.mp hupper.1
      have hA : 'A'.val.toNat = 65 := rfl
      have h9 : '9'.val.toNat = 57 := rfl
      omega
    exact dif_neg hnot
  rw [String.toList_ofList, List.map_cons, hlower, List.head?_cons, Option.any_some, hc] at hword
  cases hword

/-- The number of the text has the word of the magnitude, with its sign. -/
theorem ReadsAs.word_eq (h : ReadsAs f magnitude body q) (negative : Bool) (hq : q ≠ 0) :
    wordOfRat f (if negative then -q else q) =
      (if negative then f.signBit else 0) + magnitude := by
  have hpos : 0 < q := lt_of_le_of_ne h.nonneg (Ne.symm hq)
  cases negative with
  | true =>
    simp only [if_true]
    rw [wordOfRat, if_pos (neg_lt_zero.mpr hpos), abs_neg, abs_of_pos hpos, h.encode]
  | false =>
    simp only [Bool.false_eq_true, if_false]
    rw [wordOfRat, if_neg (not_lt.mpr hpos.le), abs_of_pos hpos, h.encode]

end

/-- The bits of a number are its sign and its magnitude, and nothing else. -/
theorem F64.bits_eq (v : F64) :
    v = F64.signed v.isNegative v.magnitude := by
  have hsign : binary64.signBit = 2 ^ 63 := rfl
  obtain ⟨bits⟩ := v
  have hlt : bits.toNat < 2 ^ 64 := bits.toNat_lt
  unfold F64.signed F64.isNegative F64.magnitude
  congr 1
  refine UInt64.toNat_inj.mp ?_
  rw [UInt64.toNat_ofNat', hsign]
  by_cases hneg : 2 ^ 63 ≤ bits.toNat
  · simp only [hneg, decide_true, if_true]
    omega
  · simp only [hneg, decide_false, Bool.false_eq_true, if_false]
    omega

theorem F32.bits_eq (v : F32) :
    v = ⟨UInt32.ofNat ((if v.isNegative then binary32.signBit else 0) + v.magnitude)⟩ := by
  have hsign : binary32.signBit = 2 ^ 31 := rfl
  obtain ⟨bits⟩ := v
  have hlt : bits.toNat < 2 ^ 32 := bits.toNat_lt
  unfold F32.isNegative F32.magnitude
  congr 1
  refine UInt32.toNat_inj.mp ?_
  rw [UInt32.toNat_ofNat', hsign]
  by_cases hneg : 2 ^ 31 ≤ bits.toNat
  · simp only [hneg, decide_true, if_true]
    omega
  · simp only [hneg, decide_false, Bool.false_eq_true, if_false]
    omega

/-- **`parse` undoes `to_string`** on the finite numbers of 64 bits, the two zeros included. -/
theorem F64.parse_display {v : F64} (h : v.isFinite = true) :
    F64.parse (String.ofList v.display) = some v := by
  have hfinite : v.magnitude ≤ binary64.infinity := (of_decide_eq_true h).le
  obtain ⟨body, q, hread, hdisplay⟩ :=
    displayFinite_eq v.isNegative (by decide : 0 ≤ places binary64) hfinite
  rw [F64.display, hdisplay, F64.parse, String.toList_ofList, hread.splitSign_eq]
  simp only
  rw [if_neg (not_or.mpr ⟨hread.ne_word (by decide), hread.ne_word (by decide)⟩),
    if_neg (hread.ne_word (by decide)), hread.value, Option.map_some]
  congr 1
  conv_rhs => rw [F64.bits_eq v]
  by_cases hq : q = 0
  · rw [hread.zero.mp hq, hq]
    cases v.isNegative <;> rfl
  · have hne : (if v.isNegative then -q else q) ≠ 0 := by
      split
      · exact neg_ne_zero.mpr hq
      · exact hq
    rw [F64.nearest, if_neg hne, F64.ofRat, hread.word_eq _ hq]
    rfl

/-- **`parse` undoes `to_string`** on the finite numbers of 32 bits. -/
theorem F32.parse_display {v : F32} (h : v.isFinite = true) :
    F32.parse (String.ofList v.display) = some v := by
  have hfinite : v.magnitude ≤ binary32.infinity := (of_decide_eq_true h).le
  obtain ⟨body, q, hread, hdisplay⟩ :=
    displayFinite_eq v.isNegative (by decide : 0 ≤ places binary32) hfinite
  rw [F32.display, hdisplay, F32.parse, String.toList_ofList, hread.splitSign_eq]
  simp only
  rw [if_neg (not_or.mpr ⟨hread.ne_word (by decide), hread.ne_word (by decide)⟩),
    if_neg (hread.ne_word (by decide)), hread.value, Option.map_some]
  congr 1
  conv_rhs => rw [F32.bits_eq v]
  by_cases hq : q = 0
  · rw [if_pos hq, hread.zero.mp hq]
  · rw [if_neg hq, F32.ofRat, hread.word_eq _ hq]

theorem F64.isNumber_display {v : F64} (h : v.isFinite = true) : JsonText.IsNumber v.display := by
  obtain ⟨body, q, hread, hdisplay⟩ := displayFinite_eq v.isNegative
    (by decide : 0 ≤ places binary64) (of_decide_eq_true h).le
  rw [F64.display, hdisplay]
  cases v.isNegative with
  | true => exact hread.isNumber.2
  | false => exact hread.isNumber.1

theorem F32.isNumber_display {v : F32} (h : v.isFinite = true) : JsonText.IsNumber v.display := by
  obtain ⟨body, q, hread, hdisplay⟩ := displayFinite_eq v.isNegative
    (by decide : 0 ≤ places binary32) (of_decide_eq_true h).le
  rw [F32.display, hdisplay]
  cases v.isNegative with
  | true => exact hread.isNumber.2
  | false => exact hread.isNumber.1

end Musubi
