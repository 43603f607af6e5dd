/-
# Texts in quotes

`{:?}` of a text: between quotes, and what is not printed as it stands behind a backslash.  Which
characters beyond ASCII are printed is a table of Unicode; it is a parameter, and nothing depends
on it.

A client asks whether a character of its own can occur in such a text, and for printed ASCII that
no escape is written with the answer is that it occurs when it occurred before.
-/
import Musubi.Lib.Text

namespace Lib

/-! ## 1. Escapes -/

def escapeUnicode (c : Char) : List Char :=
  r"\u{".toList ++ Nat.toDigits 16 c.toNat ++ r"}".toList

/-- `escape_debug_ext`, as it is called for the characters of a text. -/
def escapeDebug (printed : Char → Bool) (c : Char) : List Char :=
  if c = '\x00' then "\\0".toList
  else if c = '\t' then "\\t".toList
  else if c = '\r' then "\\r".toList
  else if c = '\n' then "\\n".toList
  else if c = '"' then "\\\"".toList
  else if c = '\\' then "\\\\".toList
  else if c.toNat < 0x20 ∨ c.toNat = 0x7F then escapeUnicode c
  else if c.toNat < 0x80 ∨ printed c then [c]
  else escapeUnicode c

def debugText (printed : Char → Bool) (s : String) : String :=
  .ofList ('"' :: (s.toList.flatMap (escapeDebug printed) ++ ['"']))

/-- A quote and a control character. -/
example : debugText (fun _ => true) "a\"\x1b" = r#""a\"\u{1b}""# := by decide

/-! ## 2. What they are made of -/

theorem exists_of_mem_toDigits {b n : ℕ} {c : Char} (h : c ∈ Nat.toDigits b n) :
    ∃ d, c = Nat.digitChar d := by
  have hcore : ∀ fuel n acc, c ∈ Nat.toDigitsCore b fuel n acc →
      (∃ d, c = Nat.digitChar d) ∨ c ∈ acc := by
    intro fuel
    induction fuel with
    | zero => exact fun n acc h => Or.inr h
    | succ fuel ih =>
      intro n acc h
      rw [Nat.toDigitsCore] at h
      split at h
      · rcases List.mem_cons.mp h with h | h
        · exact Or.inl ⟨_, h⟩
        · exact Or.inr h
      · rcases ih _ _ h with h | h
        · exact Or.inl h
        · rcases List.mem_cons.mp h with h | h
          · exact Or.inl ⟨_, h⟩
          · exact Or.inr h
  rcases hcore _ _ _ h with h | h
  · exact h
  · cases h

/-- What escapes are written with. -/
def debugLetters : List Char := r#"\"0123456789abcdef*trnu{}"#.toList

theorem digitChar_mem_debugLetters (d : ℕ) : Nat.digitChar d ∈ debugLetters := by
  by_cases hd : d < 16
  · have hall : ∀ d < 16, Nat.digitChar d ∈ debugLetters := by decide
    exact hall d hd
  · rw [Nat.digitChar_eq_star.mpr (by omega)]
    decide

variable {printed : Char → Bool} {c x : Char}

theorem mem_debugLetters_of_mem_escapeUnicode (h : x ∈ escapeUnicode c) : x ∈ debugLetters := by
  have hopen : r"\u{".toList ⊆ debugLetters := by decide
  have hclose : r"}".toList ⊆ debugLetters := by decide
  rcases List.mem_append.mp h with h | h
  · rcases List.mem_append.mp h with h | h
    · exact hopen h
    · obtain ⟨d, rfl⟩ := exists_of_mem_toDigits h
      exact digitChar_mem_debugLetters d
  · exact hclose h

/-- What stands in an escaped character is the character itself or of the escape. -/
theorem mem_escapeDebug (h : x ∈ escapeDebug printed c) : x = c ∨ x ∈ debugLetters := by
  have hescape {letters : List Char} (hletters : letters ⊆ debugLetters) (h : x ∈ letters) :
      x = c ∨ x ∈ debugLetters := Or.inr (hletters h)
  unfold escapeDebug at h
  split at h
  · exact hescape (by decide) h
  split at h
  · exact hescape (by decide) h
  split at h
  · exact hescape (by decide) h
  split at h
  · exact hescape (by decide) h
  split at h
  · exact hescape (by decide) h
  split at h
  · exact hescape (by decide) h
  split at h
  · exact Or.inr (mem_debugLetters_of_mem_escapeUnicode h)
  split at h
  · exact Or.inl (List.mem_singleton.mp h)
  · exact Or.inr (mem_debugLetters_of_mem_escapeUnicode h)

/-- **A printed ASCII character that no escape is written with** stands in the quoted text when
it stands in the text. -/
theorem mem_debugText (hx : x ∉ debugLetters) (hlow : 0x20 ≤ x.toNat) (hhigh : x.toNat < 0x7F)
    {s : String} : x ∈ (debugText printed s).toList ↔ x ∈ s.toList := by
  have hquote : x ≠ '"' := by
    rintro rfl
    exact hx (by decide)
  have hself : escapeDebug printed x = [x] := by
    have hne {c : Char} (hc : c.toNat < 0x20 ∨ c ∈ debugLetters) : x ≠ c := by
      rintro rfl
      rcases hc with hc | hc
      · omega
      · exact hx hc
    unfold escapeDebug
    rw [if_neg (hne (by decide)), if_neg (hne (by decide)), if_neg (hne (by decide)),
      if_neg (hne (by decide)), if_neg hquote, if_neg (hne (by decide)), if_neg (by omega),
      if_pos (Or.inl (by omega))]
  rw [debugText, String.toList_ofList, List.mem_cons, List.mem_append, List.mem_singleton]
  constructor
  · rintro (h | h | h)
    · exact absurd h hquote
    · obtain ⟨c, hc, hin⟩ := List.mem_flatMap.mp h
      rcases mem_escapeDebug hin with rfl | hletter
      · exact hc
      · exact absurd hletter hx
    · exact absurd h hquote
  · intro h
    refine Or.inr (Or.inl (List.mem_flatMap.mpr ⟨x, h, ?_⟩))
    rw [hself]
    exact List.mem_singleton_self x

end Lib
