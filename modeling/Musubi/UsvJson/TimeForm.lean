/-
# The times that are accepted

`adapter-usv-json/src/lib.rs`, `iso8601_utc_to_epoch_micros`: what the parser of times takes, as a
form of texts: numbers that may have a sign, a point with digits or none, a zone of any size, and
whatever follows it (`iso8601_eq_some_iff`).  A text is read in one way (`TimeText.Read.unique`).

The parser works on indices into bytes, with a check at each of them.  `Has i t` says that a text
stands at an index, and every step of the parser has a lemma of the form "it succeeds exactly when
such a part stands here, and then it goes on behind it", so the whole is the parts one after the
other.  Bytes that are no ASCII are not taken by any part, which is why texts and bytes can be
exchanged here.
-/
import Musubi.Calendars
import Musubi.Lib.JsonUnique
import Musubi.Lib.StrSlice
import Musubi.UsvJson.Times

namespace Musubi.UsvJson

open Lib Musubi.Core

/-! ## 1. Texts within bytes -/

/-- The bytes from an index on begin with an ASCII text.  What follows may be anything, and the
index may lie behind the end, where only the empty text is. -/
def Has (bytes : List UInt8) (i : ℕ) (t : List Char) : Prop :=
  t.map asciiByte <+: bytes.drop i

variable {bytes : List UInt8} {i j : ℕ}

@[simp] theorem has_nil : Has bytes i [] := List.nil_prefix

theorem has_cons {c : Char} {t : List Char} :
    Has bytes i (c :: t) ↔ bytes[i]? = some (asciiByte c) ∧ Has bytes (i + 1) t := by
  unfold Has
  rw [← List.head?_drop, ← List.tail_drop, List.map_cons]
  cases bytes.drop i with
  | nil => simp
  | cons b rest =>
    rw [List.cons_prefix_cons, List.head?_cons, List.tail_cons, Option.some_inj, eq_comm]

theorem has_append {s t : List Char} : ∀ {i : ℕ},
    Has bytes i (s ++ t) ↔ Has bytes i s ∧ Has bytes (i + s.length) t := by
  induction s with
  | nil => simp
  | cons c s ih =>
    intro i
    rw [List.cons_append, has_cons, has_cons, ih, List.length_cons, and_assoc,
      Nat.add_right_comm i 1, Nat.add_assoc i]

theorem Has.le {t : List Char} (h : Has bytes i t) (hne : t ≠ []) :
    i + t.length ≤ bytes.length := by
  have hlength := h.length_le
  have hpos := List.length_pos_of_ne_nil hne
  rw [List.length_map, List.length_drop] at hlength
  omega

theorem toNat_of_isDigit {c : Char} (h : c.isDigit = true) : 48 ≤ c.toNat ∧ c.toNat ≤ 57 := by
  rw [Char.isDigit, Bool.and_eq_true, decide_eq_true_eq, decide_eq_true_eq] at h
  exact ⟨h.1, h.2⟩

/-- Digits write less than the power of ten that they are many. -/
theorem ofDigitChars_lt {t : List Char} (h : ∀ c ∈ t, c.isDigit = true) :
    Nat.ofDigitChars 10 t 0 < 10 ^ t.length := by
  induction t with
  | nil => decide
  | cons c t ih =>
    obtain ⟨hc, ht⟩ := List.forall_mem_cons.mp h
    have hdigit := toNat_of_isDigit hc
    have hrest := ih ht
    rw [Nat.ofDigitChars_cons, Nat.ofDigitChars_eq_ofDigitChars_zero, List.length_cons,
      Nat.pow_succ]
    have hval : c.toNat - '0'.toNat ≤ 9 := by
      have hzero : '0'.toNat = 48 := rfl
      omega
    have hmul := Nat.mul_le_mul_left (10 ^ t.length) hval
    simp only [Nat.mul_zero, Nat.zero_add]
    omega

/-! ## 2. Numbers -/

/-- A text of that length that is parsed as an integer. -/
def IsField (n : ℕ) (t : List Char) : Prop := t.length = n ∧ (parseI64 t).isSome = true

/-- The integer that a text is parsed as. -/
def num (t : List Char) : ℤ := ((parseI64 t).map Int64.toInt).getD 0

/-- Digits only. -/
def IsDigits (n : ℕ) (t : List Char) : Prop := t.length = n ∧ ∀ c ∈ t, c.isDigit = true

/-- A number has a sign and digits, or digits only.  A sign is accepted in front of any field,
which is one of the slips. -/
theorem digits_of_parseI64 {t : List Char} (h : (parseI64 t).isSome = true) :
    ∃ ds, ds ≠ [] ∧ (∀ c ∈ ds, c.isDigit = true) ∧ (t = ds ∨ t = '-' :: ds ∨ t = '+' :: ds) := by
  have hdigits {ds : List Char} (hds : (parseDigits ds).isSome = true) :
      ds ≠ [] ∧ ∀ c ∈ ds, c.isDigit = true := by
    unfold parseDigits at hds
    split at hds
    · next hboth => exact ⟨hboth.1, List.all_eq_true.mp hboth.2⟩
    · cases hds
  unfold parseI64 at h
  split at h
  next negative ds hmatch =>
  have hsome : (parseDigits ds).isSome = true := by
    cases hds : parseDigits ds with
    | none =>
      rw [hds] at h
      cases h
    | some n => rfl
  obtain ⟨hne, hall⟩ := hdigits hsome
  refine ⟨ds, hne, hall, ?_⟩
  split at hmatch <;> cases hmatch
  · exact .inr (.inl rfl)
  · exact .inr (.inr rfl)
  · exact .inl rfl

theorem ascii_of_parseI64 {t : List Char} (h : (parseI64 t).isSome = true) :
    ∀ c ∈ t, c.toNat < 0x80 := by
  obtain ⟨ds, -, hall, ht⟩ := digits_of_parseI64 h
  have hds : ∀ c ∈ ds, c.toNat < 0x80 := fun c hc => by
    have := toNat_of_isDigit (hall c hc)
    omega
  rcases ht with rfl | rfl | rfl
  · exact hds
  · exact List.forall_mem_cons.mpr ⟨by decide, hds⟩
  · exact List.forall_mem_cons.mpr ⟨by decide, hds⟩

/-- A field begins with a digit or a sign. -/
theorem IsField.head {n : ℕ} {t : List Char} (h : IsField n t) :
    ∃ c t', t = c :: t' ∧ (c.isDigit = true ∨ c = '-' ∨ c = '+') := by
  obtain ⟨ds, hne, hall, ht⟩ := digits_of_parseI64 h.2
  rcases ht with rfl | rfl | rfl
  · obtain ⟨c, t', rfl⟩ := List.exists_cons_of_ne_nil hne
    exact ⟨c, t', rfl, .inl (hall c List.mem_cons_self)⟩
  · exact ⟨_, _, rfl, .inr (.inl rfl)⟩
  · exact ⟨_, _, rfl, .inr (.inr rfl)⟩

/-- Digits are parsed as the number that they write. -/
theorem parseI64_of_isDigits {n : ℕ} {t : List Char} (h : IsDigits n t) (hpos : 0 < n)
    (hsmall : n ≤ 18) : ∃ w, parseI64 t = some w ∧ w.toInt = Nat.ofDigitChars 10 t 0 := by
  have hne : t ≠ [] := by
    rintro rfl
    exact absurd h.1 (Nat.ne_of_lt hpos)
  have hdigits : parseDigits t = some (Nat.ofDigitChars 10 t 0) :=
    if_pos ⟨hne, List.all_eq_true.mpr h.2⟩
  have hlt := ofDigitChars_lt h.2
  have hpow : 10 ^ t.length ≤ 10 ^ 18 := Nat.pow_le_pow_right (by decide) (h.1 ▸ hsmall)
  have hbound : Nat.ofDigitChars 10 t 0 < 2 ^ 63 := by omega
  refine ⟨_, parseI64_digits hdigits (fun c hc => h.2 c (List.mem_of_mem_head? hc)) hbound, ?_⟩
  exact Int64.toInt_ofNat_of_lt hbound

theorem IsDigits.isField {n : ℕ} {t : List Char} (h : IsDigits n t) (hpos : 0 < n)
    (hsmall : n ≤ 18) : IsField n t := by
  obtain ⟨w, hw, -⟩ := parseI64_of_isDigits h hpos hsmall
  exact ⟨h.1, by rw [hw]; rfl⟩

theorem IsDigits.num_eq {n : ℕ} {t : List Char} (h : IsDigits n t) (hpos : 0 < n)
    (hsmall : n ≤ 18) : num t = Nat.ofDigitChars 10 t 0 := by
  obtain ⟨w, hw, hint⟩ := parseI64_of_isDigits h hpos hsmall
  rw [num, hw, ← hint]
  rfl

/-- **A number of the parser** is a field of the text.  `str::parse` takes a sign, and so does the
field. -/
theorem number_eq_some (hij : i < j) {v : ℤ} : number bytes i j = some v ↔
    ∃ t, IsField (j - i) t ∧ Has bytes i t ∧ v = num t := by
  unfold number
  constructor
  · intro h
    split at h
    next hle =>
      obtain ⟨w, hw, rfl⟩ := Option.map_eq_some_iff.mp h
      have hsome : (parseI64 (slice bytes i j)).isSome = true := by rw [hw]; rfl
      refine ⟨slice bytes i j, ⟨?_, hsome⟩, ?_, ?_⟩
      · simp only [slice, List.length_map, List.length_take, List.length_drop]
        omega
      · have hback : (slice bytes i j).map asciiByte = (bytes.drop i).take (j - i) := by
          unfold slice
          rw [List.map_map]
          refine (List.map_congr_left fun b hb => ?_).trans (List.map_id _)
          have hsmall := ascii_of_parseI64 hsome _ (List.mem_map_of_mem hb)
          have hbyte : (Char.ofNat b.toNat).toNat = b.toNat := by
            have hlt := b.toNat_lt
            exact toNat_val_ofNat (by omega)
          rw [Function.comp_apply, asciiByte, hbyte, UInt8.ofNat_toNat]
          rfl
        unfold Has
        rw [hback]
        exact List.take_prefix _ _
      · rw [num, hw]
        rfl
    · cases h
  · rintro ⟨t, ⟨hlength, hsome⟩, hhas, rfl⟩
    have hne : t ≠ [] := by
      rintro rfl
      rw [List.length_nil] at hlength
      omega
    have hle := hhas.le hne
    have hslice : slice bytes i j = t := by
      obtain ⟨rest, hrest⟩ := hhas
      have htake : (bytes.drop i).take (j - i) = t.map asciiByte := by
        rw [← hrest, ← hlength, ← List.length_map asciiByte, List.take_left]
      unfold slice
      rw [htake, List.map_map]
      refine (List.map_congr_left fun c hc => ?_).trans (List.map_id _)
      have hsmall := ascii_of_parseI64 hsome c hc
      rw [Function.comp_apply, asciiByte, toNat_ofNat_byte (by omega), Char.ofNat_toNat]
      rfl
    rw [if_pos (by omega), hslice, num]
    obtain ⟨w, hw⟩ := Option.isSome_iff_exists.mp hsome
    rw [hw]
    rfl

/-! ## 3. The form that is read -/

/-- A zone as it is written. -/
inductive ZoneText
  | utc (letter : Char)
  | offset (sign : Char) (hour : List Char) (colon : Bool) (minute : List Char)

def colonText (colon : Bool) : List Char := if colon then [':'] else []

def ZoneText.text : ZoneText → List Char
  | utc letter => [letter]
  | offset sign hour colon minute => sign :: (hour ++ (colonText colon ++ minute))

def ZoneText.Read : ZoneText → Prop
  | utc letter => letter = 'Z' ∨ letter = 'z'
  | offset sign hour _ minute => (sign = '+' ∨ sign = '-') ∧ IsField 2 hour ∧ IsField 2 minute

/-- The offset in seconds. -/
def ZoneText.seconds : ZoneText → ℤ
  | utc _ => 0
  | offset sign hour _ minute =>
    (if sign = '+' then 1 else -1) * (num hour * 3600 + num minute * 60)

def fractionText : Option (List Char) → List Char
  | none => []
  | some ds => '.' :: ds

/-- The milliseconds of a fraction: three digits, or zeros for those that it does not have. -/
def fractionMillis : Option (List Char) → ℤ
  | none => 0
  | some ds => num (ds.take 3 ++ List.replicate (3 - (ds.take 3).length) '0')

/-- A time as it is written. -/
structure TimeText where
  year : List Char
  month : List Char
  day : List Char
  separator : Char
  hour : List Char
  minute : List Char
  second : List Char
  fraction : Option (List Char)
  zone : ZoneText

namespace TimeText

def text (p : TimeText) : List Char :=
  p.year ++ '-' :: (p.month ++ '-' :: (p.day ++ p.separator :: (p.hour ++ ':' ::
    (p.minute ++ ':' :: (p.second ++ (fractionText p.fraction ++ p.zone.text))))))

/-- **What the parser takes.** The checks of range are those that it makes; of the zone it makes
none. -/
structure Read (p : TimeText) : Prop where
  year : IsField 4 p.year
  month : IsField 2 p.month
  day : IsField 2 p.day
  separator : p.separator = 'T' ∨ p.separator = 't'
  hour : IsField 2 p.hour
  minute : IsField 2 p.minute
  second : IsField 2 p.second
  month_mem : 1 ≤ num p.month ∧ num p.month ≤ 12
  hour_mem : 0 ≤ num p.hour ∧ num p.hour ≤ 23
  minute_mem : 0 ≤ num p.minute ∧ num p.minute ≤ 59
  second_mem : 0 ≤ num p.second ∧ num p.second ≤ 60
  day_mem : 1 ≤ num p.day ∧ num p.day ≤ daysInMonth (num p.year) (num p.month)
  fraction : ∀ ds ∈ p.fraction, ∀ c ∈ ds, c.isDigit = true
  zone : p.zone.Read

/-- The microseconds that are computed. -/
def micros (p : TimeText) : ℤ :=
  (daysFromCivil (num p.year) (num p.month).toNat (num p.day).toNat * 86400 + num p.hour * 3600 +
    num p.minute * 60 + num p.second - p.zone.seconds) * 1000000 + fractionMillis p.fraction * 1000

end TimeText

/-- The character that a zone begins with. -/
def isZoneChar (c : Char) : Bool := c ∈ ['Z', 'z', '+', '-']

theorem ZoneText.Read.head {z : ZoneText} (h : z.Read) :
    ∃ c t, z.text = c :: t ∧ isZoneChar c = true := by
  cases z with
  | utc letter =>
    refine ⟨letter, [], rfl, ?_⟩
    rcases h with rfl | rfl <;> rfl
  | offset sign hour colon minute =>
    refine ⟨sign, _, rfl, ?_⟩
    rcases h.1 with rfl | rfl <;> rfl

theorem zoneChar_cases {c : Char} (h : isZoneChar c = true) :
    c.isDigit = false ∧ c ≠ '.' ∧ c.toNat < 0x80 := by
  have hmem : c ∈ ['Z', 'z', '+', '-'] := of_decide_eq_true h
  have hall : ∀ d ∈ ['Z', 'z', '+', '-'], d.isDigit = false ∧ d ≠ '.' ∧ d.toNat < 0x80 := by
    simp
  exact hall c hmem

/-! ## 4. The parts, as they are parsed -/

theorem asciiByte_inj {c d : Char} (hc : c.toNat < 0x80) (hd : d.toNat < 0x80)
    (h : asciiByte c = asciiByte d) : c = d := by
  have hnat := congrArg UInt8.toNat h
  rw [asciiByte, asciiByte, toNat_ofNat_byte (by omega), toNat_ofNat_byte (by omega)] at hnat
  exact Char.toNat_inj.mp hnat

/-- The hour and the minute of a zone, behind the sign, in seconds. -/
def offsetAt (bytes : List UInt8) (i : ℕ) : Option ℤ :=
  (number bytes (i + 1) (i + 3)).bind fun oh =>
    (if bytes[i + 3]? = some 0x3A then number bytes (i + 4) (i + 6)
      else number bytes (i + 3) (i + 5)).map fun om => oh * 3600 + om * 60

theorem offsetAt_eq_some {v : ℤ} :
    offsetAt bytes i = some v ↔ ∃ hour colon minute,
      IsField 2 hour ∧ IsField 2 minute ∧
        Has bytes (i + 1) (hour ++ (colonText colon ++ minute)) ∧
        v = num hour * 3600 + num minute * 60 := by
  rw [offsetAt, Option.bind_eq_some_iff]
  constructor
  · rintro ⟨oh, hoh, h⟩
    obtain ⟨hour, hhour, hhas, rfl⟩ := (number_eq_some (by omega)).mp hoh
    have hfield : IsField 2 hour := by rwa [show i + 3 - (i + 1) = 2 by omega] at hhour
    obtain ⟨om, hom, rfl⟩ := Option.map_eq_some_iff.mp h
    split at hom
    · next hcolon =>
      obtain ⟨minute, hminute, hhas', rfl⟩ := (number_eq_some (by omega)).mp hom
      refine ⟨hour, true, minute, hfield, by rwa [show i + 6 - (i + 4) = 2 by omega] at hminute,
        ?_, rfl⟩
      refine has_append.mpr ⟨hhas, ?_⟩
      rw [hfield.1]
      exact has_cons.mpr ⟨hcolon, hhas'⟩
    · obtain ⟨minute, hminute, hhas', rfl⟩ := (number_eq_some (by omega)).mp hom
      refine ⟨hour, false, minute, hfield, by rwa [show i + 5 - (i + 3) = 2 by omega] at hminute,
        ?_, rfl⟩
      refine has_append.mpr ⟨hhas, ?_⟩
      rw [hfield.1]
      exact hhas'
  · rintro ⟨hour, colon, minute, hhour, hminute, hhas, rfl⟩
    obtain ⟨hhas, hbehind⟩ := has_append.mp hhas
    rw [hhour.1] at hbehind
    refine ⟨num hour, (number_eq_some (by omega)).mpr ⟨hour, ?_, hhas, rfl⟩, ?_⟩
    · rwa [show i + 3 - (i + 1) = 2 by omega]
    refine Option.map_eq_some_iff.mpr ⟨num minute, ?_, rfl⟩
    cases colon with
    | true =>
      obtain ⟨hcolon, hbehind⟩ := has_cons.mp hbehind
      rw [if_pos (show bytes[i + 3]? = some 0x3A from hcolon)]
      refine (number_eq_some (by omega)).mpr ⟨minute, ?_, hbehind, rfl⟩
      rwa [show i + 6 - (i + 4) = 2 by omega]
    | false =>
      have hnot : bytes[i + 3]? ≠ some 0x3A := by
        obtain ⟨c, t, rfl, hc⟩ := hminute.head
        obtain ⟨hhead, -⟩ := has_cons.mp hbehind
        rw [show i + 1 + 2 = i + 3 by omega] at hhead
        rw [hhead]
        intro heq
        have hascii : c.toNat < 0x80 := ascii_of_parseI64 hminute.2 c List.mem_cons_self
        obtain rfl := asciiByte_inj hascii (by decide) (d := ':') (Option.some.inj heq)
        simp at hc
      rw [if_neg hnot]
      refine (number_eq_some (by omega)).mpr ⟨minute, ?_, hbehind, rfl⟩
      rwa [show i + 5 - (i + 3) = 2 by omega]

/-- The zone behind its first character. -/
theorem zoneAt_eq {c : UInt8} (hc : bytes[i]? = some c) : zoneAt bytes i =
    if c = 0x5A ∨ c = 0x7A then some 0
    else if c = 0x2B ∨ c = 0x2D then
      (offsetAt bytes i).map ((if c = 0x2B then 1 else -1) * ·)
    else none := by
  unfold zoneAt offsetAt
  rw [hc]
  by_cases hletter : c = 0x5A ∨ c = 0x7A
  · simp only [hletter, if_true, Option.bind_eq_bind, Option.bind_some]
    rfl
  · simp only [hletter, if_false, Option.bind_eq_bind, Option.bind_some]
    split
    · cases number bytes (i + 1) (i + 3) with
      | none => rfl
      | some oh =>
        split
        · cases number bytes (i + 4) (i + 6) <;> rfl
        · cases number bytes (i + 3) (i + 5) <;> rfl
    · rfl

/-- **The zone**: a letter, or a sign with an hour and a minute. -/
theorem zoneAt_eq_some {v : ℤ} : zoneAt bytes i = some v ↔
    ∃ z : ZoneText, Has bytes i z.text ∧ z.Read ∧ v = z.seconds := by
  constructor
  · intro h
    cases hc : bytes[i]? with
    | none =>
      rw [zoneAt, hc] at h
      cases h
    | some c =>
      rw [zoneAt_eq hc] at h
      split at h
      · next hletter =>
        obtain rfl := Option.some.inj h
        rcases hletter with rfl | rfl
        · exact ⟨.utc 'Z', has_cons.mpr ⟨hc, has_nil⟩, .inl rfl, rfl⟩
        · exact ⟨.utc 'z', has_cons.mpr ⟨hc, has_nil⟩, .inr rfl, rfl⟩
      split at h
      · next hsign =>
        obtain ⟨w, hw, rfl⟩ := Option.map_eq_some_iff.mp h
        obtain ⟨hour, colon, minute, hhour, hminute, hhas, rfl⟩ := offsetAt_eq_some.mp hw
        rcases hsign with rfl | rfl
        · exact ⟨.offset '+' hour colon minute, has_cons.mpr ⟨hc, hhas⟩,
            ⟨.inl rfl, hhour, hminute⟩, rfl⟩
        · exact ⟨.offset '-' hour colon minute, has_cons.mpr ⟨hc, hhas⟩,
            ⟨.inr rfl, hhour, hminute⟩, rfl⟩
      · cases h
  · rintro ⟨z, hhas, hread, rfl⟩
    cases z with
    | utc letter =>
      obtain ⟨hc, -⟩ := has_cons.mp hhas
      rw [zoneAt_eq hc]
      rcases hread with rfl | rfl <;> rfl
    | offset sign hour colon minute =>
      obtain ⟨hc, hhas⟩ := has_cons.mp hhas
      obtain ⟨hsign, hhour, hminute⟩ := hread
      have hoffset := offsetAt_eq_some.mpr ⟨hour, colon, minute, hhour, hminute, hhas, rfl⟩
      rw [zoneAt_eq hc]
      rcases hsign with rfl | rfl
      · rw [if_neg (by decide), if_pos (by decide), hoffset]
        rfl
      · rw [if_neg (by decide), if_pos (by decide), hoffset]
        rfl

theorem isDigits_take_zeros {ds : List Char} (h : ∀ c ∈ ds, c.isDigit = true) :
    IsDigits 3 (ds.take 3 ++ List.replicate (3 - (ds.take 3).length) '0') := by
  refine ⟨?_, List.forall_mem_append.mpr ⟨fun c hc => h c (List.mem_of_mem_take hc), ?_⟩⟩
  · rw [List.length_append, List.length_replicate, List.length_take]
    omega
  · intro c hc
    rw [List.eq_of_mem_replicate hc]
    rfl

/-- The digits of a fraction are parsed, three of them or zeros. -/
theorem fraction_eq {ds : List Char} (h : ∀ c ∈ ds, c.isDigit = true) :
    fraction ds = some (fractionMillis (some ds)) := by
  obtain ⟨w, hw, -⟩ := parseI64_of_isDigits (isDigits_take_zeros h) (by decide) (by decide)
  simp only [fraction, fractionMillis, num, hw]
  rfl

/-- What is taken as long as it is a digit is a text. -/
theorem has_takeWhile : Has bytes i
    (((bytes.drop i).map fun b => Char.ofNat b.toNat).takeWhile Char.isDigit) := by
  unfold Has
  generalize bytes.drop i = l
  induction l with
  | nil => exact List.prefix_refl _
  | cons b l ih =>
    rw [List.map_cons, List.takeWhile_cons]
    split
    · next hdigit =>
      have hsmall := toNat_of_isDigit hdigit
      have hbyte : (Char.ofNat b.toNat).toNat = b.toNat := by
        have hlt := b.toNat_lt
        exact toNat_val_ofNat (by omega)
      rw [List.map_cons, asciiByte, hbyte, UInt8.ofNat_toNat]
      exact List.cons_prefix_cons.mpr ⟨rfl, ih⟩
    · exact List.nil_prefix

/-- **The milliseconds** are those of a fraction, or none. -/
theorem exists_fraction {v : ℤ} (h : millisAt bytes i = some (v, j)) :
    ∃ f : Option (List Char), (∀ ds ∈ f, ∀ c ∈ ds, c.isDigit = true) ∧
      Has bytes i (fractionText f) ∧ j = i + (fractionText f).length ∧ v = fractionMillis f := by
  unfold millisAt at h
  split at h
  · next hpoint =>
    obtain ⟨ms, hms, heq⟩ := Option.map_eq_some_iff.mp h
    have hall : ∀ c ∈ ((bytes.drop (i + 1)).map fun b => Char.ofNat b.toNat).takeWhile
        Char.isDigit, c.isDigit = true := fun c hc => List.mem_takeWhile_imp hc
    rw [fraction_eq hall] at hms
    cases hms
    cases heq
    refine ⟨some _, fun ds hds => ?_, has_cons.mpr ⟨hpoint, has_takeWhile⟩, ?_, rfl⟩
    · obtain rfl := Option.some.inj hds
      exact hall
    · rw [fractionText, List.length_cons]
      omega
  · cases h
    exact ⟨none, by simp, has_nil, rfl, rfl⟩

/-- A fraction that a zone follows is read to its end. -/
theorem millisAt_eq {f : Option (List Char)} (hf : ∀ ds ∈ f, ∀ c ∈ ds, c.isDigit = true)
    {z : ZoneText} (hz : z.Read) (h : Has bytes i (fractionText f ++ z.text)) :
    millisAt bytes i = some (fractionMillis f, i + (fractionText f).length) := by
  obtain ⟨c, t, hc, hzone⟩ := hz.head
  obtain ⟨hdigit, hpoint, hascii⟩ := zoneChar_cases hzone
  rw [hc] at h
  unfold millisAt
  cases f with
  | none =>
    obtain ⟨hhead, -⟩ := has_cons.mp h
    have hnot : bytes[i]? ≠ some 0x2E := by
      rw [hhead]
      intro heq
      exact hpoint (asciiByte_inj hascii (d := '.') (by decide) (Option.some.inj heq))
    rw [if_neg hnot]
    rfl
  | some ds =>
    rw [fractionText, List.cons_append, has_cons] at h
    obtain ⟨hhead, hrest⟩ := h
    have hds := hf ds rfl
    have hchar {c : Char} (hc : c.toNat < 0x80) : Char.ofNat (asciiByte c).toNat = c := by
      rw [asciiByte, toNat_ofNat_byte (by omega), Char.ofNat_toNat]
    have hback : ds.map (fun c => Char.ofNat (asciiByte c).toNat) = ds := by
      refine (List.map_congr_left fun c hc => hchar ?_).trans (List.map_id _)
      have := toNat_of_isDigit (hds c hc)
      omega
    have htake : ((bytes.drop (i + 1)).map fun b => Char.ofNat b.toNat).takeWhile Char.isDigit =
        ds := by
      obtain ⟨rest, hrest⟩ := hrest
      rw [← hrest, List.map_append, List.map_map, List.map_append, List.append_assoc]
      simp only [Function.comp_def]
      rw [hback, List.takeWhile_append_of_pos hds, List.map_cons, hchar hascii, List.cons_append,
        List.takeWhile_cons_of_neg (by rw [hdigit]; exact Bool.false_ne_true), List.append_nil]
    rw [if_pos (show bytes[i]? = some 0x2E from hhead)]
    dsimp only
    rw [htake, fraction_eq hds, fractionText, List.length_cons, Nat.add_assoc, Nat.add_comm 1]
    rfl

/-! ## 5. What is accepted -/

/-- The parts of a text stand where the parser looks for them. -/
theorem TimeText.Read.has_text {p : TimeText} (h : p.Read) : Has bytes 0 p.text ↔
    Has bytes 0 p.year ∧ bytes[4]? = some (asciiByte '-') ∧ Has bytes 5 p.month ∧
      bytes[7]? = some (asciiByte '-') ∧ Has bytes 8 p.day ∧
      bytes[10]? = some (asciiByte p.separator) ∧ Has bytes 11 p.hour ∧
      bytes[13]? = some (asciiByte ':') ∧ Has bytes 14 p.minute ∧
      bytes[16]? = some (asciiByte ':') ∧ Has bytes 17 p.second ∧
      Has bytes 19 (fractionText p.fraction ++ p.zone.text) := by
  rw [text, has_append, has_cons, has_append, has_cons, has_append, has_cons, has_append, has_cons,
    has_append, has_cons, has_append, h.year.1, h.month.1, h.day.1, h.hour.1, h.minute.1,
    h.second.1]

/-- **The parser of times**, as a form of what the bytes begin with. -/
theorem iso8601BytesToEpochMicros_eq_some {t : ℤ} : iso8601BytesToEpochMicros bytes = some t ↔
    ∃ p : TimeText, Has bytes 0 p.text ∧ p.Read ∧ t = p.micros := by
  constructor
  · intro h
    unfold iso8601BytesToEpochMicros at h
    split at h
    · cases h
    obtain ⟨year, hyear, h⟩ := Option.bind_eq_some_iff.mp h
    split at h
    · cases h
    next hdash =>
    obtain ⟨month, hmonth, h⟩ := Option.bind_eq_some_iff.mp h
    split at h
    · cases h
    next hdash' =>
    obtain ⟨day, hday, h⟩ := Option.bind_eq_some_iff.mp h
    split at h
    · cases h
    next hseparator =>
    obtain ⟨hour, hhour, h⟩ := Option.bind_eq_some_iff.mp h
    split at h
    · cases h
    next hcolon =>
    obtain ⟨minute, hminute, h⟩ := Option.bind_eq_some_iff.mp h
    split at h
    · cases h
    next hcolon' =>
    obtain ⟨second, hsecond, h⟩ := Option.bind_eq_some_iff.mp h
    split at h
    · cases h
    next hranges =>
    split at h
    · cases h
    next hdayRange =>
    obtain ⟨⟨millis, idx⟩, hmillis, h⟩ := Option.bind_eq_some_iff.mp h
    obtain ⟨offset, hoffset, h⟩ := Option.bind_eq_some_iff.mp h
    obtain rfl := Option.some.inj h
    obtain ⟨yearText, hyearField, hyearHas, rfl⟩ := (number_eq_some (by omega)).mp hyear
    obtain ⟨monthText, hmonthField, hmonthHas, rfl⟩ := (number_eq_some (by omega)).mp hmonth
    obtain ⟨dayText, hdayField, hdayHas, rfl⟩ := (number_eq_some (by omega)).mp hday
    obtain ⟨hourText, hhourField, hhourHas, rfl⟩ := (number_eq_some (by omega)).mp hhour
    obtain ⟨minuteText, hminuteField, hminuteHas, rfl⟩ := (number_eq_some (by omega)).mp hminute
    obtain ⟨secondText, hsecondField, hsecondHas, rfl⟩ := (number_eq_some (by omega)).mp hsecond
    obtain ⟨f, hf, hfHas, rfl, rfl⟩ := exists_fraction hmillis
    obtain ⟨z, hzHas, hz, rfl⟩ := zoneAt_eq_some.mp hoffset
    obtain ⟨separator, hsep, hsepByte⟩ : ∃ c, (c = 'T' ∨ c = 't') ∧
        bytes[10]? = some (asciiByte c) := by
      by_cases hT : bytes[10]? = some 0x54
      · exact ⟨'T', .inl rfl, hT⟩
      · exact ⟨'t', .inr rfl, by_contra fun ht => hseparator ⟨hT, ht⟩⟩
    have hrange : (1 ≤ num monthText ∧ num monthText ≤ 12) ∧
        (0 ≤ num hourText ∧ num hourText ≤ 23) ∧ (0 ≤ num minuteText ∧ num minuteText ≤ 59) ∧
        0 ≤ num secondText ∧ num secondText ≤ 60 := by omega
    have hread : TimeText.Read ⟨yearText, monthText, dayText, separator, hourText, minuteText,
        secondText, f, z⟩ :=
      ⟨hyearField, hmonthField, hdayField, hsep, hhourField, hminuteField, hsecondField,
        hrange.1, hrange.2.1, hrange.2.2.1, hrange.2.2.2, not_not.mp hdayRange, hf, hz⟩
    refine ⟨_, hread.has_text.mpr ⟨hyearHas, not_not.mp hdash, hmonthHas, not_not.mp hdash',
      hdayHas, hsepByte, hhourHas, not_not.mp hcolon, hminuteHas, not_not.mp hcolon', hsecondHas,
      has_append.mpr ⟨hfHas, hzHas⟩⟩, hread, rfl⟩
  · rintro ⟨p, hhas, hread, rfl⟩
    obtain ⟨hyear, hdash, hmonth, hdash', hday, hseparator, hhour, hcolon, hminute, hcolon',
      hsecond, htail⟩ := hread.has_text.mp hhas
    obtain ⟨-, hzone⟩ := has_append.mp htail
    have hnumber {i j : ℕ} {t : List Char} (hij : i < j) (ht : IsField (j - i) t)
        (hhas : Has bytes i t) : number bytes i j = some (num t) :=
      (number_eq_some hij).mpr ⟨t, ht, hhas, rfl⟩
    have hlength : ¬ bytes.length < 20 := by
      obtain ⟨c, t, hc, -⟩ := hread.zone.head
      have hle := hzone.le (by rw [hc]; exact List.cons_ne_nil c t)
      rw [hc, List.length_cons] at hle
      omega
    have hT : ¬ (bytes[10]? ≠ some 0x54 ∧ bytes[10]? ≠ some 0x74) := by
      rw [hseparator]
      rcases hread.separator with hsep | hsep <;> rw [hsep] <;> decide
    have hranges : ¬ (¬ (1 ≤ num p.month ∧ num p.month ≤ 12) ∨
        ¬ (0 ≤ num p.hour ∧ num p.hour ≤ 23) ∨ ¬ (0 ≤ num p.minute ∧ num p.minute ≤ 59) ∨
        ¬ (0 ≤ num p.second ∧ num p.second ≤ 60)) := by
      have hmonth := hread.month_mem
      have hhour := hread.hour_mem
      have hminute := hread.minute_mem
      have hsecond := hread.second_mem
      omega
    unfold iso8601BytesToEpochMicros
    rw [if_neg hlength]
    refine Option.bind_eq_some_iff.mpr ⟨_, hnumber (by decide) hread.year hyear, ?_⟩
    rw [if_neg (not_not.mpr (show bytes[4]? = some 0x2D from hdash))]
    refine Option.bind_eq_some_iff.mpr ⟨_, hnumber (by decide) hread.month hmonth, ?_⟩
    rw [if_neg (not_not.mpr (show bytes[7]? = some 0x2D from hdash'))]
    refine Option.bind_eq_some_iff.mpr ⟨_, hnumber (by decide) hread.day hday, ?_⟩
    rw [if_neg hT]
    refine Option.bind_eq_some_iff.mpr ⟨_, hnumber (by decide) hread.hour hhour, ?_⟩
    rw [if_neg (not_not.mpr (show bytes[13]? = some 0x3A from hcolon))]
    refine Option.bind_eq_some_iff.mpr ⟨_, hnumber (by decide) hread.minute hminute, ?_⟩
    rw [if_neg (not_not.mpr (show bytes[16]? = some 0x3A from hcolon'))]
    refine Option.bind_eq_some_iff.mpr ⟨_, hnumber (by decide) hread.second hsecond, ?_⟩
    rw [if_neg hranges, if_neg (not_not.mpr hread.day_mem)]
    refine Option.bind_eq_some_iff.mpr ⟨_, millisAt_eq hread.fraction hread.zone htail, ?_⟩
    exact Option.bind_eq_some_iff.mpr ⟨_, zoneAt_eq_some.mpr ⟨_, hzone, hread.zone, rfl⟩, rfl⟩

/-- The text of a time is ASCII, so the offsets of its bytes are those of its characters. -/
theorem TimeText.Read.ascii {p : TimeText} (h : p.Read) : ∀ c ∈ p.text, c.toNat < 0x80 := by
  have hfield {n : ℕ} {t : List Char} (ht : IsField n t) : ∀ c ∈ t, c.toNat < 0x80 :=
    ascii_of_parseI64 ht.2
  have hseparator : p.separator.toNat < 0x80 := by
    rcases h.separator with hsep | hsep <;> rw [hsep] <;> decide
  have hfraction : ∀ c ∈ fractionText p.fraction, c.toNat < 0x80 := by
    cases hf : p.fraction with
    | none => exact fun c hc => nomatch hc
    | some ds =>
      refine List.forall_mem_cons.mpr ⟨by decide, fun c hc => ?_⟩
      have := toNat_of_isDigit (h.fraction ds hf c hc)
      omega
  have hzone : ∀ c ∈ p.zone.text, c.toNat < 0x80 := by
    have hread := h.zone
    cases hz : p.zone with
    | utc letter =>
      rw [hz] at hread
      rcases hread with rfl | rfl <;> simp [ZoneText.text]
    | offset sign hour colon minute =>
      rw [hz] at hread
      obtain ⟨hsign, hhour, hminute⟩ := hread
      refine List.forall_mem_cons.mpr ⟨?_, List.forall_mem_append.mpr ⟨hfield hhour,
        List.forall_mem_append.mpr ⟨?_, hfield hminute⟩⟩⟩
      · rcases hsign with rfl | rfl <;> decide
      · cases colon <;> simp [colonText]
  simp only [text, List.forall_mem_append, List.forall_mem_cons]
  exact ⟨hfield h.year, by decide, hfield h.month, by decide, hfield h.day, hseparator,
    hfield h.hour, by decide, hfield h.minute, by decide, hfield h.second, hfraction, hzone⟩

/-- The bytes of a text begin with an ASCII text where its characters do. -/
theorem prefix_utf8Bytes_iff {t : List Char} (ht : ∀ c ∈ t, c.toNat < 0x80) :
    ∀ {cs : List Char}, t.map asciiByte <+: utf8Bytes cs ↔ t <+: cs := by
  induction t with
  | nil => simp
  | cons c t ih =>
    obtain ⟨hc, hrest⟩ := List.forall_mem_cons.mp ht
    intro cs
    cases cs with
    | nil => simp
    | cons d cs =>
      constructor
      · intro h
        have hhead : (utf8Bytes (d :: cs)).head? = some (asciiByte c) := by
          obtain ⟨rest, hrest⟩ := h
          rw [← hrest]
          rfl
        have hdc : d = c := Option.some.inj ((head?_utf8Bytes_iff hc).mp hhead)
        rw [hdc, utf8Bytes_cons, utf8EncodeChar_ascii hc, List.map_cons, List.singleton_append,
          List.cons_prefix_cons] at h
        rw [hdc]
        exact List.cons_prefix_cons.mpr ⟨rfl, (ih hrest).mp h.2⟩
      · intro h
        obtain ⟨hdc, hfront⟩ := List.cons_prefix_cons.mp h
        rw [← hdc, utf8Bytes_cons, utf8EncodeChar_ascii hc, List.map_cons, List.singleton_append]
        exact List.cons_prefix_cons.mpr ⟨rfl, (ih hrest).mpr hfront⟩

/-- **What the parser accepts**: a time as it reads one, and whatever follows it. -/
theorem iso8601_eq_some_iff {s : String} {t : ℤ} : iso8601UtcToEpochMicros s = some t ↔
    ∃ p rest, s.toList = TimeText.text p ++ rest ∧ p.Read ∧ t = p.micros := by
  have hhas {p : TimeText} (hp : p.Read) :
      Has (utf8 s) 0 p.text ↔ ∃ rest, s.toList = p.text ++ rest := by
    unfold Has utf8
    rw [List.drop_zero, toByteArray_eq_utf8Bytes, prefix_utf8Bytes_iff hp.ascii]
    exact exists_congr fun rest => eq_comm
  rw [iso8601UtcToEpochMicros, iso8601BytesToEpochMicros_eq_some]
  constructor
  · rintro ⟨p, h, hp, rfl⟩
    obtain ⟨rest, hrest⟩ := (hhas hp).mp h
    exact ⟨p, rest, hrest, hp, rfl⟩
  · rintro ⟨p, rest, hrest, hp, rfl⟩
    exact ⟨p, (hhas hp).mpr ⟨rest, hrest⟩, hp, rfl⟩

/-! ## 6. One reading -/

/-- A zone is read in one way: its first character says of which form it is, and the form how long
it is. -/
theorem ZoneText.Read.unique {z z' : ZoneText} (h : z.Read) (h' : z'.Read)
    {rest rest' : List Char} (heq : z.text ++ rest = z'.text ++ rest') : z = z' ∧ rest = rest' := by
  cases z with
  | utc letter =>
    cases z' with
    | utc letter' =>
      obtain ⟨rfl, hrest⟩ := List.cons.inj heq
      exact ⟨rfl, hrest⟩
    | offset sign hour colon minute =>
      obtain ⟨rfl, -⟩ := List.cons.inj heq
      rcases h with rfl | rfl <;> exact absurd h'.1 (by decide)
  | offset sign hour colon minute =>
    cases z' with
    | utc letter' =>
      obtain ⟨rfl, -⟩ := List.cons.inj heq
      rcases h' with rfl | rfl <;> exact absurd h.1 (by decide)
    | offset sign' hour' colon' minute' =>
      obtain ⟨-, hhour, hminute⟩ := h
      obtain ⟨-, hhour', hminute'⟩ := h'
      simp only [ZoneText.text, List.cons_append, List.append_assoc, List.cons.injEq] at heq
      obtain ⟨rfl, hbehind⟩ := heq
      obtain ⟨rfl, hminutes⟩ := List.append_inj hbehind (hhour.1.trans hhour'.1.symm)
      -- a minute begins with no colon
      have hclash {m m' r r' : List Char} (hm : IsField 2 m) (h : m ++ r = ':' :: (m' ++ r')) :
          False := by
        obtain ⟨c, t, rfl, hc⟩ := hm.head
        rw [(List.cons.inj h).1] at hc
        simp at hc
      cases colon with
      | true =>
        cases colon' with
        | true =>
          obtain ⟨rfl, hrest⟩ :=
            List.append_inj (List.append_cancel_left hminutes) (hminute.1.trans hminute'.1.symm)
          exact ⟨rfl, hrest⟩
        | false => exact (hclash hminute' hminutes.symm).elim
      | false =>
        cases colon' with
        | true => exact (hclash hminute hminutes).elim
        | false =>
          obtain ⟨rfl, hrest⟩ :=
            List.append_inj (List.append_cancel_left hminutes) (hminute.1.trans hminute'.1.symm)
          exact ⟨rfl, hrest⟩

/-- A fraction ends where the zone begins. -/
theorem fraction_unique {f f' : Option (List Char)} (hf : ∀ ds ∈ f, ∀ c ∈ ds, c.isDigit = true)
    (hf' : ∀ ds ∈ f', ∀ c ∈ ds, c.isDigit = true) {z z' : ZoneText} (hz : z.Read) (hz' : z'.Read)
    {rest rest' : List Char} (heq : fractionText f ++ (z.text ++ rest) =
      fractionText f' ++ (z'.text ++ rest')) :
    f = f' ∧ z.text ++ rest = z'.text ++ rest' := by
  obtain ⟨c, t, hc, hzone⟩ := hz.head
  obtain ⟨c', t', hc', hzone'⟩ := hz'.head
  obtain ⟨hdigit, hpoint, -⟩ := zoneChar_cases hzone
  obtain ⟨hdigit', hpoint', -⟩ := zoneChar_cases hzone'
  have hstop {c : Char} {t r : List Char} (hc : c.isDigit = false) :
      ∀ d ∈ (c :: t ++ r).head?, d.isDigit = false := by
    intro d hd
    rwa [← Option.some.inj hd]
  rw [hc, hc'] at heq ⊢
  cases f with
  | none =>
    cases f' with
    | none => exact ⟨rfl, heq⟩
    | some ds' => exact absurd (List.cons.inj heq).1 hpoint
  | some ds =>
    cases f' with
    | none => exact absurd (List.cons.inj heq).1.symm hpoint'
    | some ds' =>
      obtain ⟨rfl, hrest⟩ := JsonText.prefix_unique (hf ds rfl) (hf' ds' rfl) (hstop hdigit)
        (hstop hdigit') (List.cons.inj heq).2
      exact ⟨rfl, hrest⟩

/-- **A text is read as one time.** Fields have fixed lengths, digits of a fraction end where
there is none, and a zone begins with a letter or a sign. -/
theorem TimeText.Read.unique {p p' : TimeText} (h : p.Read) (h' : p'.Read)
    {rest rest' : List Char} (heq : p.text ++ rest = p'.text ++ rest') : p = p' ∧ rest = rest' := by
  obtain ⟨year, month, day, separator, hour, minute, second, f, z⟩ := p
  obtain ⟨year', month', day', separator', hour', minute', second', f', z'⟩ := p'
  simp only [text, List.append_assoc, List.cons_append] at heq
  have hlength {n : ℕ} {t t' : List Char} (ht : IsField n t) (ht' : IsField n t') :
      t.length = t'.length := ht.1.trans ht'.1.symm
  obtain ⟨rfl, h₁⟩ := List.append_inj heq (hlength h.year h'.year)
  obtain ⟨rfl, h₂⟩ := List.append_inj (List.cons.inj h₁).2 (hlength h.month h'.month)
  obtain ⟨rfl, h₃⟩ := List.append_inj (List.cons.inj h₂).2 (hlength h.day h'.day)
  obtain ⟨rfl, h₄⟩ := List.cons.inj h₃
  obtain ⟨rfl, h₅⟩ := List.append_inj h₄ (hlength h.hour h'.hour)
  obtain ⟨rfl, h₆⟩ := List.append_inj (List.cons.inj h₅).2 (hlength h.minute h'.minute)
  obtain ⟨rfl, h₇⟩ := List.append_inj (List.cons.inj h₆).2 (hlength h.second h'.second)
  obtain ⟨rfl, h₈⟩ := fraction_unique h.fraction h'.fraction h.zone h'.zone h₇
  obtain ⟨rfl, hrest⟩ := h.zone.unique h'.zone h₈
  exact ⟨rfl, hrest⟩

end Musubi.UsvJson
