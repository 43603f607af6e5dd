/-
# The last write

Events change a state one after the other, and some of them write what a view shows of it.  What
the view shows in the end is what the last of these has left there: the events behind it do not
matter, and neither do those before it, but for the state that it came upon.

It is asked of an event that does not write that it leaves the view alone; the state behind the
view may change with every event.
-/
import Mathlib.Data.List.Induction

namespace Lib

variable {σ ε ν : Type} {next : σ → ε → σ} {init : σ}

/-- **The view shows what the last write has left**, unless nothing has been written. -/
theorem exists_last_write (view : σ → ν) (writes : ε → Prop)
    (hkeep : ∀ s e, ¬ writes e → view (next s e) = view s)
    {events : List ε} (h : view (events.foldl next init) ≠ view init) :
    ∃ before e after, events = before ++ e :: after ∧ writes e ∧ (∀ x ∈ after, ¬ writes x) ∧
      view (events.foldl next init) = view (next (before.foldl next init) e) := by
  induction events using List.reverseRecOn with
  | nil => exact absurd rfl h
  | append_singleton events x ih =>
    rw [List.foldl_append, List.foldl_cons, List.foldl_nil] at h ⊢
    by_cases hx : writes x
    · exact ⟨events, x, [], rfl, hx, fun y hy => (List.not_mem_nil hy).elim, rfl⟩
    · rw [hkeep _ x hx] at h ⊢
      obtain ⟨before, e, after, rfl, he, hafter, hview⟩ := ih h
      refine ⟨before, e, after ++ [x], ?_, he, ?_, hview⟩
      · rw [List.append_assoc, List.cons_append]
      · intro y hy
        rcases List.mem_append.mp hy with hy | hy
        · exact hafter y hy
        · rwa [List.mem_singleton.mp hy]

end Lib
