/-
# Words one after the other

A packed record is a sequence of words of fixed widths, least significant byte first.  `wordAt`
says which word of it starts at an offset, from the widths alone, so where a reader looks for a
word is a computation and what it finds there is one lemma (`exists_of_wordAt`).  A text takes a
fixed place in such a record, with zeros behind it.

A writer's record is then a list of widths and values, and a reader that looks in the wrong place,
or for the wrong width, finds nothing there.
-/
import Musubi.Lib.Bytes

namespace Lib

/-- Words, each with its width. -/
def pack (words : List (ℕ × ℕ)) : List UInt8 := words.flatMap fun w => leBytes w.1 w.2

/-- The word of width `n` that starts at an offset. -/
def wordAt : List (ℕ × ℕ) → ℕ → ℕ → Option ℕ
  | [], _, _ => none
  | (m, v) :: words, off, n =>
    if off = 0 then if m = n then some v else none
    else if m ≤ off then wordAt words (off - m) n
    else none

@[simp] theorem pack_cons (w : ℕ × ℕ) (words : List (ℕ × ℕ)) :
    pack (w :: words) = leBytes w.1 w.2 ++ pack words := rfl

theorem length_pack (words : List (ℕ × ℕ)) : (pack words).length = (words.map Prod.fst).sum := by
  induction words with
  | nil => rfl
  | cons w words ih => rw [pack_cons, List.length_append, length_leBytes, ih, List.map_cons,
      List.sum_cons]

/-- The bytes at the offset are those of the word. -/
theorem exists_of_wordAt {words : List (ℕ × ℕ)} : ∀ {off n v : ℕ}, wordAt words off n = some v →
    ∃ front rest, pack words = front ++ (leBytes n v ++ rest) ∧ front.length = off := by
  induction words with
  | nil =>
    intro off n v h
    cases h
  | cons w words ih =>
    obtain ⟨m, value⟩ := w
    intro off n v h
    rw [wordAt] at h
    split at h
    · next hzero =>
      split at h
      · next hwidth =>
        cases h
        exact ⟨[], pack words, by rw [pack_cons, hwidth, List.nil_append], hzero.symm⟩
      · cases h
    · split at h
      · next hle =>
        obtain ⟨front, rest, hpack, hlength⟩ := ih h
        refine ⟨leBytes m value ++ front, rest, ?_, ?_⟩
        · rw [pack_cons, hpack, List.append_assoc]
        · rw [List.length_append, length_leBytes, hlength, Nat.add_sub_cancel' hle]
      · cases h

/-- The first `n` bytes, with zeros where there are fewer. -/
def zeroPadded (n : ℕ) (bytes : List UInt8) : List UInt8 := (bytes.take n).rightpad n 0

@[simp] theorem length_zeroPadded (n : ℕ) (bytes : List UInt8) :
    (zeroPadded n bytes).length = n := by
  rw [zeroPadded, List.rightpad, List.length_append, List.length_replicate, List.length_take]
  omega

/-- Up to its first zero it is what there is room for. -/
theorem takeWhile_zeroPadded {n : ℕ} {bytes : List UInt8} (hlen : bytes.length ≤ n)
    (hzero : (0 : UInt8) ∉ bytes) : (zeroPadded n bytes).takeWhile (· ≠ 0) = bytes := by
  have hne : ∀ b ∈ bytes, decide (b ≠ 0) = true :=
    fun b hb => decide_eq_true fun h => hzero (h ▸ hb)
  rw [zeroPadded, List.take_of_length_le hlen, List.rightpad, List.takeWhile_append_of_pos hne,
    List.takeWhile_replicate, if_neg (by decide), List.append_nil]

end Lib
