/-
# Halts that do not happen

`Safe` and `Ends` rule out every halt that is not an error of the program.  `Avoids halt x Q` is
about one halt alone: `x` does not end with it, and if it returns, what it returns satisfies `Q`.
Of a loop it asks for an invariant and for no variant, since a loop that runs out of its rounds
has not panicked.  What avoids every halt returns (`returns_of_avoids`).

It is for programs of which one part may go on for ever and another may panic: the two are looked
at apart.
-/
import Musubi.Lib.Checked

namespace Lib.Checked

variable {ε α β σ : Type} {halt : Halt ε} {x : Checked ε α} {P Q : α → Prop} {R : β → Prop}

/-! ## 1. The judgment -/

def Avoids (halt : Halt ε) (x : Checked ε α) (Q : α → Prop) : Prop :=
  match x with
  | .ok a => Q a
  | .error e => e ≠ halt

theorem Avoids.cases (h : Avoids halt x Q) :
    (∃ e, x = .error e ∧ e ≠ halt) ∨ ∃ a, x = .ok a ∧ Q a := by
  match x, h with
  | .ok a, h => exact Or.inr ⟨a, rfl, h⟩
  | .error e, h => exact Or.inl ⟨e, rfl, h⟩

theorem Avoids.ne (h : Avoids halt x Q) : x ≠ .error halt := by
  rintro rfl
  exact h rfl

theorem avoids_of_ne (h : x ≠ .error halt) : Avoids halt x fun _ => True := by
  rcases x with e | a
  · exact fun he => h (congrArg Except.error he)
  · exact trivial

theorem avoids_ok {a : α} (h : Q a) : Avoids halt (.ok a) Q := h

theorem Avoids.mono (h : Avoids halt x P) (hPQ : ∀ a, P a → Q a) : Avoids halt x Q := by
  rcases h.cases with ⟨e, rfl, he⟩ | ⟨a, rfl, ha⟩
  · exact he
  · exact hPQ a ha

/-- What is returned is also known as that. -/
theorem Avoids.returned (h : Avoids halt x Q) : Avoids halt x fun a => x = .ok a ∧ Q a := by
  rcases h.cases with ⟨e, rfl, he⟩ | ⟨a, rfl, ha⟩
  · exact he
  · exact ⟨rfl, ha⟩

/-! ## 2. Rules -/

theorem Avoids.bind {f : α → Checked ε β} (hx : Avoids halt x P)
    (hf : ∀ a, P a → Avoids halt (f a) R) : Avoids halt (x >>= f) R := by
  rcases hx.cases with ⟨e, rfl, he⟩ | ⟨a, rfl, ha⟩
  · exact he
  · exact hf a ha

theorem avoids_foldlM {f : β → α → Checked ε β} (l : List α) {b : β} (hb : R b)
    (hf : ∀ b, ∀ a ∈ l, R b → Avoids halt (f b a) R) : Avoids halt (l.foldlM f b) R := by
  induction l generalizing b with
  | nil => exact avoids_ok hb
  | cons a l ih =>
    rw [List.foldlM_cons]
    refine (hf b a List.mem_cons_self hb).bind fun b' hb' => ?_
    exact ih hb' fun b a ha => hf b a (List.mem_cons_of_mem _ ha)

/-- **The loop rule**: an invariant is enough for a halt other than the end of the rounds. -/
theorem avoids_loop {body : σ → Checked ε (σ ⊕ β)} {I : σ → Prop} (hne : halt ≠ .outOfRounds)
    (hbody : ∀ s, I s → Avoids halt (body s) (Sum.elim I R)) (rounds : ℕ) :
    ∀ {s : σ}, I s → Avoids halt (loop body rounds s) R := by
  induction rounds with
  | zero => exact fun _ => hne.symm
  | succ rounds ih =>
    intro s hs
    refine (hbody s hs).bind fun r hr => ?_
    cases r with
    | inl s' => exact ih hr
    | inr b => exact hr

/-- What has no errors of its own returns when it does not panic and its rounds suffice. -/
theorem returns_of_avoids {x : Checked Empty α} (hpanic : x ≠ .error .panic)
    (hrounds : x ≠ .error .outOfRounds) : ∃ a, x = .ok a := by
  match x with
  | .ok a => exact ⟨a, rfl⟩
  | .error .panic => exact absurd rfl hpanic
  | .error .outOfRounds => exact absurd rfl hrounds
  | .error (.fail e) => exact e.elim

end Lib.Checked
