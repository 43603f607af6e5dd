/-
# Slices of strings

A string is the bytes of its characters, and a slice of it whose end lies within a character is a
panic.  A program that looks for an ASCII character finds the byte where one starts: its byte is
in no other character, so what is in front of it and what is behind it are strings again
(`findByte_utf8Bytes`, `strSlice_append`).

So a program that slices a string at such places is the same program on a list of characters, and
the panics are gone.
-/
import Musubi.Lib.Checked
import Musubi.Lib.Utf8

namespace Lib

open Checked

/-! ## 1. Operations -/

/-- The bytes of a text. -/
def utf8Bytes (cs : List Char) : List UInt8 := cs.flatMap String.utf8EncodeChar

/-- A byte that goes on with a character. -/
def IsContinuation (b : UInt8) : Prop := 0x80 ≤ b.toNat ∧ b.toNat < 0xC0

instance (b : UInt8) : Decidable (IsContinuation b) := inferInstanceAs (Decidable (_ ∧ _))

/-- `is_char_boundary`. -/
def isCharBoundary (s : List UInt8) (i : ℕ) : Bool :=
  i = 0 || (match s[i]? with
    | some b => !decide (IsContinuation b)
    | none => decide (i = s.length))

/-- `&s[a..b]`. -/
def strSlice {ε : Type} (s : List UInt8) (a b : ℕ) : Checked ε (List UInt8) :=
  if a ≤ b ∧ b ≤ s.length ∧ isCharBoundary s a ∧ isCharBoundary s b then
    .ok ((s.drop a).take (b - a))
  else .error .panic

/-- The byte of an ASCII character. -/
def asciiByte (c : Char) : UInt8 := .ofNat c.toNat

/-- `s.find(c)` for an ASCII character. -/
def findByte (c : Char) (s : List UInt8) : Option ℕ := s.idxOf? (asciiByte c)

/-- A euro sign has three bytes, and a string is cut in front of them or behind them. -/
example : (strSlice (utf8Bytes ['€', 'a']) 0 3 : Checked Empty _) = .ok (utf8Bytes ['€']) ∧
    (strSlice (utf8Bytes ['€', 'a']) 0 2 : Checked Empty _) = .error .panic := by decide

/-! ## 2. Boundaries -/

@[simp] theorem utf8Bytes_nil : utf8Bytes [] = [] := rfl

@[simp] theorem utf8Bytes_cons (c : Char) (cs : List Char) :
    utf8Bytes (c :: cs) = String.utf8EncodeChar c ++ utf8Bytes cs := List.flatMap_cons

@[simp] theorem utf8Bytes_append (a b : List Char) :
    utf8Bytes (a ++ b) = utf8Bytes a ++ utf8Bytes b := List.flatMap_append

theorem toByteArray_eq_utf8Bytes (s : String) :
    s.toByteArray.data.toList = utf8Bytes s.toList := toByteArray_toList s

theorem utf8EncodeChar_ascii {c : Char} (hc : c.toNat < 0x80) :
    String.utf8EncodeChar c = [asciiByte c] := by
  unfold String.utf8EncodeChar
  exact if_pos (Nat.le_of_lt_succ hc)

/-- A character starts with a byte that goes on with none. -/
theorem exists_head_utf8EncodeChar (c : Char) :
    ∃ b rest, String.utf8EncodeChar c = b :: rest ∧ ¬ IsContinuation b := by
  unfold String.utf8EncodeChar
  dsimp only
  split
  · refine ⟨_, _, rfl, ?_⟩
    unfold IsContinuation
    rw [toNat_ofNat_byte (by omega)]
    omega
  split
  · refine ⟨_, _, rfl, ?_⟩
    unfold IsContinuation
    rw [toNat_ofNat_byte (by omega)]
    omega
  split
  · refine ⟨_, _, rfl, ?_⟩
    unfold IsContinuation
    rw [toNat_ofNat_byte (by omega)]
    omega
  · refine ⟨_, _, rfl, ?_⟩
    unfold IsContinuation
    rw [toNat_ofNat_byte (by omega)]
    omega

/-- Between two texts there is a boundary. -/
theorem isCharBoundary_append (a b : List Char) :
    isCharBoundary (utf8Bytes (a ++ b)) (utf8Bytes a).length = true := by
  unfold isCharBoundary
  rw [utf8Bytes_append, List.getElem?_append_right (Nat.le_refl _), Nat.sub_self]
  cases b with
  | nil => simp
  | cons c b =>
    obtain ⟨head, rest, hc, hhead⟩ := exists_head_utf8EncodeChar c
    simp [hc, hhead]

/-- **A slice between two texts is the text between them.** -/
theorem strSlice_append {ε : Type} (a b c : List Char) :
    (strSlice (utf8Bytes (a ++ b ++ c)) (utf8Bytes a).length
      ((utf8Bytes a).length + (utf8Bytes b).length) : Checked ε (List UInt8)) =
      .ok (utf8Bytes b) := by
  have hstart : isCharBoundary (utf8Bytes (a ++ b ++ c)) (utf8Bytes a).length = true := by
    rw [List.append_assoc]
    exact isCharBoundary_append a (b ++ c)
  have hstop : isCharBoundary (utf8Bytes (a ++ b ++ c))
      ((utf8Bytes a).length + (utf8Bytes b).length) = true := by
    rw [← List.length_append, ← utf8Bytes_append]
    exact isCharBoundary_append (a ++ b) c
  have hle : (utf8Bytes a).length + (utf8Bytes b).length ≤ (utf8Bytes (a ++ b ++ c)).length := by
    simp only [utf8Bytes_append, List.length_append]
    omega
  unfold strSlice
  rw [if_pos ⟨Nat.le_add_right _ _, hle, hstart, hstop⟩, Nat.add_sub_cancel_left, List.append_assoc,
    utf8Bytes_append, utf8Bytes_append, List.drop_left, List.take_left]

/-! ## 3. Searches -/

variable {c : Char} {cs : List Char}

theorem asciiByte_mem_iff (hc : c.toNat < 0x80) : asciiByte c ∈ utf8Bytes cs ↔ c ∈ cs := by
  unfold utf8Bytes
  rw [List.mem_flatMap]
  constructor
  · rintro ⟨d, hd, hmem⟩
    rwa [(mem_utf8EncodeChar hc).mp hmem] at hd
  · intro hmem
    exact ⟨c, hmem, (mem_utf8EncodeChar hc).mpr rfl⟩

/-- A text starts with an ASCII character where its bytes start with the byte of it. -/
theorem head?_utf8Bytes_iff (hc : c.toNat < 0x80) :
    (utf8Bytes cs).head? = some (asciiByte c) ↔ cs.head? = some c := by
  cases cs with
  | nil => simp
  | cons d cs =>
    obtain ⟨b, rest, hd, -⟩ := exists_head_utf8EncodeChar d
    rw [utf8Bytes_cons, hd, List.cons_append, List.head?_cons, List.head?_cons]
    constructor
    · intro h
      have hmem : asciiByte c ∈ String.utf8EncodeChar d := by
        rw [hd, ← Option.some.inj h]
        exact List.mem_cons_self
      rw [(mem_utf8EncodeChar hc).mp hmem]
    · intro h
      rw [Option.some.inj h, utf8EncodeChar_ascii hc] at hd
      rw [(List.cons.inj hd).1]

theorem findByte_eq_none_iff (hc : c.toNat < 0x80) :
    findByte c (utf8Bytes cs) = none ↔ c ∉ cs := by
  rw [findByte, List.idxOf?_eq_none_iff, asciiByte_mem_iff hc]

/-- **A character is found behind the text in front of it.** -/
theorem findByte_utf8Bytes (hc : c.toNat < 0x80) {before behind : List Char} (h : c ∉ before) :
    findByte c (utf8Bytes (before ++ c :: behind)) = some (utf8Bytes before).length := by
  have hmem : asciiByte c ∉ utf8Bytes before := fun hmem => h ((asciiByte_mem_iff hc).mp hmem)
  have hbytes : utf8Bytes (before ++ c :: behind) =
      utf8Bytes before ++ asciiByte c :: utf8Bytes behind := by
    rw [utf8Bytes_append, utf8Bytes_cons, utf8EncodeChar_ascii hc, List.singleton_append]
  rw [findByte, hbytes]
  generalize utf8Bytes before = bytes at hmem
  induction bytes with
  | nil => simp [List.idxOf?_cons]
  | cons b bytes ih =>
    rw [List.mem_cons, not_or] at hmem
    rw [List.cons_append, List.idxOf?_cons, beq_eq_false_iff_ne.mpr (Ne.symm hmem.1),
      ih hmem.2]
    rfl

end Lib
