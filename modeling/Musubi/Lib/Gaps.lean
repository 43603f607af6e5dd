/-
# Consecutive points

The neighbours in a list, and what lies between two of them: in a list that is sorted, nothing of
the list.  The list may be put between two further points that are not in order with it, the ends
of a window.

A point is anything with a time, so that a neighbour can carry what it stands for along.
-/
import Mathlib.Data.List.Basic
import Mathlib.Order.Basic

namespace Lib

variable {α τ : Type}

/-- Each entry with the next one. -/
def consecutive (l : List α) : List (α × α) := l.zip l.tail

@[simp] theorem consecutive_cons_cons (a b : α) (l : List α) :
    consecutive (a :: b :: l) = (a, b) :: consecutive (b :: l) := rfl

@[simp] theorem consecutive_singleton (a : α) : consecutive [a] = [] := rfl

theorem mem_of_mem_consecutive {l : List α} {p : α × α} (h : p ∈ consecutive l) :
    p.1 ∈ l ∧ p.2 ∈ l := by
  obtain ⟨h1, h2⟩ := List.of_mem_zip h
  exact ⟨h1, List.mem_of_mem_tail h2⟩

/-- Neighbours are where the list can be cut before both. -/
theorem mem_consecutive_iff {p q : α} (l : List α) :
    (p, q) ∈ consecutive l ↔ ∃ before after, l = before ++ p :: q :: after := by
  induction l with
  | nil =>
    refine iff_of_false List.not_mem_nil ?_
    rintro ⟨before, after, h⟩
    exact List.append_ne_nil_of_right_ne_nil _ (List.cons_ne_nil _ _) h.symm
  | cons a l ih =>
    cases l with
    | nil =>
      refine iff_of_false List.not_mem_nil ?_
      rintro ⟨before, after, h⟩
      have hlength := congrArg List.length h
      simp only [List.length_append, List.length_cons, List.length_nil] at hlength
      omega
    | cons b l =>
      rw [consecutive_cons_cons, List.mem_cons, ih]
      constructor
      · rintro (h | ⟨before, after, h⟩)
        · cases h
          exact ⟨[], l, rfl⟩
        · exact ⟨a :: before, after, by rw [h, List.cons_append]⟩
      · rintro ⟨before, after, h⟩
        cases before with
        | nil =>
          cases h
          exact Or.inl rfl
        | cons c before =>
          exact Or.inr ⟨before, after, (List.cons.inj h).2⟩

/-- Nothing that is in the list, or before all of it, lies strictly between neighbours. -/
theorem not_between_of_before [Preorder τ] (time : α → τ) (stop : α) (l : List α) :
    ∀ (start : α), l.Pairwise (fun a b => time a ≤ time b) →
      ∀ p ∈ consecutive (start :: (l ++ [stop])), ∀ x,
        x ∈ l ∨ (time x ≤ time start ∧ ∀ y ∈ l, time x ≤ time y) →
        ¬ (time p.1 < time x ∧ time x < time p.2) := by
  induction l with
  | nil =>
    rintro start - p hp x hx ⟨h1, h2⟩
    rw [List.nil_append, consecutive_cons_cons, consecutive_singleton, List.mem_singleton] at hp
    subst hp
    rcases hx with hx | ⟨hx, -⟩
    · cases hx
    · exact absurd h1 (not_lt_of_ge hx)
  | cons a l ih =>
    intro start hsorted p hp x hx
    obtain ⟨hhead, htail⟩ := List.pairwise_cons.mp hsorted
    rw [List.cons_append, consecutive_cons_cons, List.mem_cons] at hp
    rcases hp with rfl | hp
    · rintro ⟨h1, h2⟩
      rcases hx with hx | ⟨hx, -⟩
      · rcases List.mem_cons.mp hx with rfl | hx
        · exact absurd h2 (lt_irrefl _)
        · exact absurd h2 (not_lt_of_ge (hhead x hx))
      · exact absurd h1 (not_lt_of_ge hx)
    · refine ih a htail p hp x ?_
      rcases hx with hx | ⟨-, hx⟩
      · rcases List.mem_cons.mp hx with rfl | hx
        · exact Or.inr ⟨le_refl _, hhead⟩
        · exact Or.inl hx
      · exact Or.inr ⟨hx a List.mem_cons_self, fun y hy => hx y (List.mem_cons_of_mem _ hy)⟩

/-- **Nothing of a sorted list lies strictly between neighbours**, the ends of the window
included. -/
theorem not_between [Preorder τ] {time : α → τ} {l : List α}
    (hsorted : l.Pairwise (fun a b => time a ≤ time b)) {start stop : α} {p : α × α}
    (hp : p ∈ consecutive (start :: (l ++ [stop]))) {x : α} (hx : x ∈ l) :
    ¬ (time p.1 < time x ∧ time x < time p.2) :=
  not_between_of_before time stop l start hsorted p hp x (Or.inl hx)

end Lib
