/-
# Bounded queues

A queue that forgets its oldest entry when a new one would exceed the bound holds the LAST entries
of everything that was ever put into it (`pushBack_rtake`).  Nothing else about the trimming
matters to a client: two bounded queues fed by the same history are compared through their bounds
alone (`mem_rtake_mono`).

The history is a ghost; it is what an invariant says the queue is a part of.
-/
import Mathlib.Data.List.DropRight

namespace Lib

variable {α : Type}

/-- The bound that a queue asked to hold `n` entries gets is positive. -/
theorem bound_pos (n : ℕ) : 0 < max n 1 := Nat.lt_of_lt_of_le Nat.one_pos (Nat.le_max_right _ _)

/-- Append at the back, then drop the front entry if the bound is exceeded. -/
def pushBack (cap : ℕ) (q : List α) (x : α) : List α :=
  if cap < (q ++ [x]).length then (q ++ [x]).tail else q ++ [x]

theorem mem_pushBack {cap : ℕ} {q : List α} {x y : α} (h : y ∈ pushBack cap q x) :
    y ∈ q ∨ y = x := by
  have hy : y ∈ q ++ [x] := by
    unfold pushBack at h
    split at h
    · exact List.mem_of_mem_tail h
    · exact h
  rcases List.mem_append.mp hy with hy | hy
  · exact .inl hy
  · exact .inr (List.mem_singleton.mp hy)

theorem length_rtake (l : List α) (n : ℕ) : (l.rtake n).length = min n l.length := by
  rw [List.rtake, List.length_drop]
  omega

/-- A suffix is what remains after its own length. -/
theorem eq_rtake_of_suffix {s l : List α} (h : s <:+ l) : s = l.rtake s.length := by
  rw [List.rtake]
  exact List.suffix_iff_eq_drop.mp h

/-- **A bounded queue holds the last entries of its history.** A bound of zero holds none. -/
theorem pushBack_rtake (cap : ℕ) (l : List α) (x : α) :
    pushBack cap (l.rtake cap) x = (l ++ [x]).rtake cap := by
  have hlen := length_rtake l cap
  simp only [pushBack, List.length_append, List.length_singleton, hlen]
  cases cap with
  | zero => simp [List.rtake_zero]
  | succ c =>
    rw [List.rtake_concat_succ]
    split
    · rename_i h
      have hcut : (l.rtake (c + 1)).tail = l.rtake c := by
        rw [List.rtake, List.rtake, List.tail_drop]
        congr 1
        omega
      rw [List.tail_append_of_ne_nil, hcut]
      exact List.ne_nil_of_length_pos (by omega)
    · rename_i h
      have hall : ∀ m, l.length ≤ m → l.rtake m = l := by
        intro m hm
        rw [List.rtake, Nat.sub_eq_zero_of_le hm, List.drop_zero]
      rw [hall (c + 1) (by omega), hall c (by omega)]

/-- Trimming does not look at the entries. -/
theorem map_pushBack {β : Type} (f : α → β) (cap : ℕ) (q : List α) (x : α) :
    (pushBack cap q x).map f = pushBack cap (q.map f) (f x) := by
  simp only [pushBack, List.length_append, List.length_map, List.length_singleton]
  split <;> simp only [List.map_tail, List.map_append, List.map_cons, List.map_nil]

/-- What is among the last `m` is among the last `n`, for `m ≤ n`. -/
theorem mem_rtake_mono {l : List α} {m n : ℕ} (h : m ≤ n) {x : α} (hx : x ∈ l.rtake m) :
    x ∈ l.rtake n := by
  rw [List.rtake] at hx ⊢
  have hle : l.length - n ≤ l.length - m := by omega
  obtain ⟨d, hd⟩ := Nat.exists_eq_add_of_le hle
  rw [hd, ← List.drop_drop] at hx
  exact List.mem_of_mem_drop hx

/-- One more entry in the history: among the last `n` is the new one or what was there. -/
theorem mem_rtake_concat {l : List α} {n : ℕ} {x y : α} (hx : x ∈ (l ++ [y]).rtake n) :
    x = y ∨ x ∈ l.rtake n := by
  cases n with
  | zero =>
    rw [List.rtake_zero] at hx
    cases hx
  | succ k =>
    rw [List.rtake_concat_succ, List.mem_append, List.mem_singleton] at hx
    rcases hx with h | h
    · exact Or.inr (mem_rtake_mono (Nat.le_succ k) h)
    · exact Or.inl h

end Lib
