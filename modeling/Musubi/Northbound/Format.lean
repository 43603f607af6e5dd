/-
# Texts of the serializers

`northbound/src/lib.rs`: how strings are escaped and how numbers, times and the origin of a
confidence are written.  A number with a fixed count of decimals is the exact value of the float,
rounded half to even.

What the documents need of each text is proved here once.  Escaping leaves none of the characters
that markup is made of and is undone by reading the references (sections 4); a number or a time is
written with digits, signs, points and colons, so it needs no escaping and can stand in any field
(section 5).
-/
import Mathlib.Data.Bool.AllAny
import Musubi.Floats
import Musubi.Lib.Text
import Musubi.Lib.XmlReader
import Musubi.Northbound.Publisher
import Musubi.Northbound.WirePolicy

namespace Musubi.Northbound

open Lib

/-! ## 1. Escaping -/

def escapeChar (c : Char) : Text :=
  if c = '&' then "&amp;".toList
  else if c = '<' then "&lt;".toList
  else if c = '>' then "&gt;".toList
  else if c = '"' then "&quot;".toList
  else [c]

def xmlEscapeAttr (s : Text) : Text := s.flatMap escapeChar

/-! ## 2. Numbers -/

/-- The digits of `n`, with zeros before them up to the width. -/
def zeroPad (width n : ℕ) : Text :=
  let digits := n.repr.toList
  List.replicate (width - digits.length) '0' ++ digits

/-- `{:0width}` of an integer; a sign counts. -/
def zeroPadInt (width : ℕ) (n : ℤ) : Text :=
  if n < 0 then '-' :: zeroPad (width - 1) n.natAbs else zeroPad width n.natAbs

/-- `{:.decimals}` of the finite float with that word. -/
def fixedPoint (f : BinaryFormat) (decimals word : ℕ) : Text :=
  let n := roundHalfEven (f.value (word % f.signBit) * 10 ^ decimals)
  (if f.signBit ≤ word then ['-'] else []) ++
    ((n / 10 ^ decimals).repr.toList ++ '.' :: zeroPad decimals (n % 10 ^ decimals))

/-- `trim_end_matches('0')`. -/
def trimZeros (s : Text) : Text := (s.reverse.dropWhile (· = '0')).reverse

def fmtF64 (v : F64) : Text :=
  if !v.isFinite then "9999999.0".toList
  else
    let trimmed := trimZeros (fixedPoint binary64 7 v.bits.toNat)
    if trimmed.getLast? = some '.' then trimmed ++ ['0'] else trimmed

def fmtConf (v : F32) : Text :=
  if v.isFinite then fixedPoint binary32 2 v.bits.toNat else "0.00".toList

def fmtBasis : Option ConfidenceBasis → Text
  | some .adapterAssigned => "adapter-assigned".toList
  | some (.measured _) => "measured".toList
  | none => "unspecified".toList

/-! ## 3. Times -/

/-- Days since 1970-01-01 as year, month and day. -/
def civilFromDays (z : ℤ) : ℤ × ℕ × ℕ :=
  let z := z + 719468
  let era := (if 0 ≤ z then z else z - 146096).tdiv 146097
  let doe := z - era * 146097
  let yoe := (doe - doe.tdiv 1460 + doe.tdiv 36524 - doe.tdiv 146096).tdiv 365
  let y := yoe + era * 400
  let doy := doe - (365 * yoe + yoe.tdiv 4 - yoe.tdiv 100)
  let mp := (5 * doy + 2).tdiv 153
  let day := doy - (153 * mp + 2).tdiv 5 + 1
  let month := if mp < 10 then mp + 3 else mp - 9
  let year := if month ≤ 2 then y + 1 else y
  (year, month.toNat, day.toNat)

def iso8601UtcFromEpochMs (epochMs : Int64) : Text :=
  let ms := epochMs.toInt % 1000
  let totalSecs := epochMs.toInt / 1000
  let secsOfDay := totalSecs % 86400
  let days := totalSecs / 86400
  let hour := secsOfDay.tdiv 3600
  let minute := (secsOfDay.tmod 3600).tdiv 60
  let second := secsOfDay.tmod 60
  let (year, month, day) := civilFromDays days
  zeroPadInt 4 year ++ '-' :: (zeroPad 2 month ++ '-' :: (zeroPad 2 day ++
    'T' :: (zeroPadInt 2 hour ++ ':' :: (zeroPadInt 2 minute ++ ':' :: (zeroPadInt 2 second ++
      '.' :: (zeroPadInt 3 ms ++ ['Z']))))))

/-- The time of observation, in milliseconds, or that of reception. -/
def effectiveTimeMs (t : Timestamps) : Int64 :=
  match t.observedAt with
  | some observedAtUs => Int64.ofInt (observedAtUs.toInt / 1000)
  | none => t.receivedAt

/-! ## 4. What escaping does -/

theorem xmlEscapeAttr_cons (c : Char) (s : Text) :
    xmlEscapeAttr (c :: s) = escapeChar c ++ xmlEscapeAttr s := rfl

theorem xmlEscapeAttr_append (s t : Text) :
    xmlEscapeAttr (s ++ t) = xmlEscapeAttr s ++ xmlEscapeAttr t := List.flatMap_append

/-- What a character is escaped to: itself, or a reference that starts with `&`. -/
theorem escapeChar_cases (c : Char) :
    (escapeChar c = [c] ∧ c ∉ ['&', '<', '>', '"']) ∨
      (c ∈ ['&', '<', '>', '"'] ∧ '&' ∈ escapeChar c ∧
        ∀ d ∈ escapeChar c, d ∈ "&ampltgquo;".toList) := by
  unfold escapeChar
  split
  · rename_i h
    rw [h]
    exact Or.inr ⟨by decide, by decide, List.all_iff_forall_prop.mp (by decide)⟩
  · split
    · rename_i h
      rw [h]
      exact Or.inr ⟨by decide, by decide, List.all_iff_forall_prop.mp (by decide)⟩
    · split
      · rename_i h
        rw [h]
        exact Or.inr ⟨by decide, by decide, List.all_iff_forall_prop.mp (by decide)⟩
      · split
        · rename_i h
          rw [h]
          exact Or.inr ⟨by decide, by decide, List.all_iff_forall_prop.mp (by decide)⟩
        · refine Or.inl ⟨rfl, ?_⟩
          simp only [List.mem_cons, List.not_mem_nil, or_false, not_or]
          exact ⟨by assumption, by assumption, by assumption, by assumption⟩

/-- A character of escaped text is one of the text, or belongs to a reference. -/
theorem mem_xmlEscapeAttr {s : Text} {c : Char} (h : c ∈ xmlEscapeAttr s) :
    (c ∈ s ∧ c ∉ ['&', '<', '>', '"']) ∨ c ∈ "&ampltgquo;".toList := by
  obtain ⟨d, hd, hc⟩ := List.mem_flatMap.mp h
  rcases escapeChar_cases d with ⟨heq, hplain⟩ | ⟨-, -, href⟩
  · rw [heq, List.mem_singleton] at hc
    rw [hc]
    exact Or.inl ⟨hd, hplain⟩
  · exact Or.inr (href c hc)

/-- **Markup does not survive escaping**, and neither does the quote that ends a value. -/
theorem notMem_xmlEscapeAttr {c : Char} (hc : c ∈ ['<', '>', '"']) (s : Text) :
    c ∉ xmlEscapeAttr s := by
  intro h
  rcases mem_xmlEscapeAttr h with ⟨-, hplain⟩ | href
  · exact hplain (List.mem_cons_of_mem _ hc)
  · revert href
    have hall : ∀ c ∈ ['<', '>', '"'], c ∉ "&ampltgquo;".toList :=
      List.all_iff_forall_prop.mp (by decide)
    exact hall c hc

/-- Text that holds no reference after escaping held nothing to escape. -/
theorem notMem_of_amp_notMem {s : Text} (h : '&' ∉ xmlEscapeAttr s) :
    ∀ c ∈ s, c ∉ ['&', '<', '>', '"'] := by
  intro c hc
  rcases escapeChar_cases c with ⟨-, hplain⟩ | ⟨-, hamp, -⟩
  · exact hplain
  · exact absurd (List.mem_flatMap.mpr ⟨c, hc, hamp⟩) h

/-- Text that holds nothing to escape is not changed. -/
theorem xmlEscapeAttr_of_plain {s : Text} (h : ∀ c ∈ s, c ∉ ['&', '<', '>', '"']) :
    xmlEscapeAttr s = s := by
  induction s with
  | nil => rfl
  | cons c s ih =>
    obtain ⟨hc, hs⟩ := List.forall_mem_cons.mp h
    rcases escapeChar_cases c with ⟨heq, -⟩ | ⟨hspecial, -⟩
    · rw [xmlEscapeAttr_cons, heq, ih hs, List.singleton_append]
    · exact absurd hspecial hc

/-- **Escaped text reads back**, with an ampersand of its own among the rest. -/
theorem unescape_xmlEscapeAttr (s : Text) : Xml.unescape (xmlEscapeAttr s) = s := by
  induction s with
  | nil => rfl
  | cons c s ih =>
    rw [xmlEscapeAttr_cons]
    unfold escapeChar
    split
    · rename_i h
      rw [h]
      exact congrArg _ ih
    · split
      · rename_i h
        rw [h]
        exact congrArg _ ih
      · split
        · rename_i h
          rw [h]
          exact congrArg _ ih
        · split
          · rename_i h
            rw [h]
            exact congrArg _ ih
          · rename_i hamp _ _ _
            rw [List.singleton_append, Xml.unescape_cons hamp, ih]

/-! ## 5. What is written of a number or a time -/

/-- The characters of numbers and times. -/
def isPlain (c : Char) : Bool := c.isDigit || c ∈ ['-', '.', ':', 'T', 'Z']

theorem isPlain_repr (n : ℕ) : n.repr.toList.all isPlain = true := by
  rw [List.all_eq_true]
  intro c hc
  unfold isPlain
  rw [isDigit_of_mem_repr hc, Bool.true_or]

theorem isPlain_toString (v : Int64) : (toString v).toList.all isPlain = true := by
  change v.toInt.repr.toList.all isPlain = true
  cases v.toInt with
  | ofNat n => exact isPlain_repr n
  | negSucc n =>
    change ("-" ++ (n + 1).repr).toList.all isPlain = true
    rw [String.toList_append, List.all_append, isPlain_repr, Bool.and_true]
    decide

theorem isPlain_zeroPad (width n : ℕ) : (zeroPad width n).all isPlain = true := by
  unfold zeroPad
  rw [List.all_append, isPlain_repr, Bool.and_true, List.all_eq_true]
  intro c hc
  rw [List.eq_of_mem_replicate hc]
  rfl

theorem isPlain_zeroPadInt (width : ℕ) (n : ℤ) : (zeroPadInt width n).all isPlain = true := by
  unfold zeroPadInt
  split
  · rw [List.all_cons, isPlain_zeroPad]
    rfl
  · exact isPlain_zeroPad _ _

theorem isPlain_fixedPoint (f : BinaryFormat) (decimals word : ℕ) :
    (fixedPoint f decimals word).all isPlain = true := by
  unfold fixedPoint
  rw [List.all_append, List.all_append, List.all_cons, isPlain_repr, isPlain_zeroPad]
  split
  · rfl
  · rfl

theorem isPlain_trimZeros {s : Text} (h : s.all isPlain = true) :
    (trimZeros s).all isPlain = true := by
  rw [List.all_eq_true] at h ⊢
  intro c hc
  unfold trimZeros at hc
  refine h c (List.mem_reverse.mp ?_)
  exact (List.dropWhile_sublist _).mem (List.mem_reverse.mp hc)

theorem isPlain_fmtF64 (v : F64) : (fmtF64 v).all isPlain = true := by
  have htrimmed := isPlain_trimZeros (isPlain_fixedPoint binary64 7 v.bits.toNat)
  unfold fmtF64
  split
  · decide
  · simp only
    split
    · rw [List.all_append, htrimmed]
      rfl
    · exact htrimmed

theorem isPlain_fmtConf (v : F32) : (fmtConf v).all isPlain = true := by
  unfold fmtConf
  split
  · exact isPlain_fixedPoint _ _ _
  · decide

theorem isPlain_iso8601 (epochMs : Int64) :
    (iso8601UtcFromEpochMs epochMs).all isPlain = true := by
  unfold iso8601UtcFromEpochMs
  simp only [List.all_append, List.all_cons, isPlain_zeroPad, isPlain_zeroPadInt, Bool.and_true,
    Bool.true_and, List.all_nil]
  rfl

/-- A time from the documentation of the format, and two coordinates. -/
example : iso8601UtcFromEpochMs 1700000000123 = "2023-11-14T22:13:20.123Z".toList ∧
    fmtF64 (.ofRat (5 / 100000)) = "0.00005".toList ∧ fmtF64 (.ofRat 488) = "488.0".toList := by
  decide +kernel

end Musubi.Northbound
