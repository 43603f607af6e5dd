/-
# Runs of a state machine that may fail

A component is a step function `step : σ → ι → Option (ο × σ)`: from a state and an input it
yields an output and the next state, or fails.  Failure stands for whatever aborts the program
being modelled (an `expect` on `None`, an index out of range), so "the component never aborts"
is the statement that `run` is `some`.

A run records the LOG of the inputs and the outputs they drew, and the two rules below are the
only inductions over runs a client needs:

* `run_invariant`: what holds of the empty log and survives one step holds of every run;
* `run_total`: a state invariant under which every step succeeds makes every run succeed.
-/
import Mathlib.Data.List.Basic

namespace Lib

variable {σ ι ο : Type}

/-- Feed the inputs one after the other, logging each with the output it drew. -/
def run (step : σ → ι → Option (ο × σ)) : σ → List ι → Option (List (ι × ο) × σ)
  | s, [] => some ([], s)
  | s, i :: is =>
    match step s i with
    | none => none
    | some (o, s') =>
      match run step s' is with
      | none => none
      | some (log, s'') => some ((i, o) :: log, s'')

variable {step : σ → ι → Option (ο × σ)}

@[simp] theorem run_nil (s : σ) : run step s [] = some ([], s) := rfl

/-- A run over `i :: is` is one step and then a run over `is`. -/
theorem run_cons_eq_some {s s'' : σ} {i : ι} {is : List ι} {log : List (ι × ο)} :
    run step s (i :: is) = some (log, s'') ↔
      ∃ o s' log', step s i = some (o, s') ∧ run step s' is = some (log', s'') ∧
        log = (i, o) :: log' := by
  simp only [run]
  constructor
  · intro h
    split at h
    · cases h
    · rename_i o s' hs
      split at h
      · cases h
      · rename_i log' t hr
        simp only [Option.some.injEq, Prod.mk.injEq] at h
        obtain ⟨rfl, rfl⟩ := h
        exact ⟨o, s', log', hs, hr, rfl⟩
  · rintro ⟨o, s', log', hs, hr, rfl⟩
    rw [hs]
    simp only [hr]

/-- The log lists exactly the inputs that were fed. -/
theorem run_inputs {is : List ι} : ∀ {s s' : σ} {log : List (ι × ο)},
    run step s is = some (log, s') → log.map Prod.fst = is := by
  induction is with
  | nil =>
    intro s s' log h
    simp only [run_nil, Option.some.injEq, Prod.mk.injEq] at h
    rw [← h.1, List.map_nil]
  | cons i is ih =>
    intro s s' log h
    obtain ⟨o, t, log', -, hr, rfl⟩ := run_cons_eq_some.mp h
    rw [List.map_cons, ih hr]

/-- A run may be cut at any entry of its log: what came before is a run of its own, the entry is
one step from where that run ended, and the rest is a run from there. -/
theorem run_split {pre post : List (ι × ο)} {i : ι} {o : ο} {s s'' : σ} {is : List ι} :
    run step s is = some (pre ++ (i, o) :: post, s'') →
      ∃ s₁ s₂, run step s (pre.map Prod.fst) = some (pre, s₁) ∧ step s₁ i = some (o, s₂) ∧
        run step s₂ (post.map Prod.fst) = some (post, s'') := by
  induction pre generalizing s is with
  | nil =>
    intro h
    cases is with
    | nil => cases h
    | cons j js =>
      obtain ⟨o', t, log', hs, hr, heq⟩ := run_cons_eq_some.mp h
      simp only [List.nil_append, List.cons.injEq, Prod.mk.injEq] at heq
      obtain ⟨⟨rfl, rfl⟩, rfl⟩ := heq
      have hjs := run_inputs hr
      exact ⟨s, t, rfl, hs, hjs ▸ hr⟩
  | cons e pre ih =>
    intro h
    cases is with
    | nil => cases h
    | cons j js =>
      obtain ⟨o', t, log', hs, hr, heq⟩ := run_cons_eq_some.mp h
      simp only [List.cons_append, List.cons.injEq] at heq
      obtain ⟨rfl, rfl⟩ := heq
      obtain ⟨s₁, s₂, h1, h2, h3⟩ := ih hr
      exact ⟨s₁, s₂, run_cons_eq_some.mpr ⟨o', t, pre, hs, h1, rfl⟩, h2, h3⟩

/-- The invariant rule, from a state reached with the log `pre` behind it. -/
theorem run_invariant_from {P : List (ι × ο) → σ → Prop}
    (hstep : ∀ log s i o s', P log s → step s i = some (o, s') → P (log ++ [(i, o)]) s')
    {is : List ι} : ∀ {pre log : List (ι × ο)} {s s' : σ},
    P pre s → run step s is = some (log, s') → P (pre ++ log) s' := by
  induction is with
  | nil =>
    intro pre log s s' hP h
    simp only [run_nil, Option.some.injEq, Prod.mk.injEq] at h
    obtain ⟨rfl, rfl⟩ := h
    rwa [List.append_nil]
  | cons i is ih =>
    intro pre log s s' hP h
    obtain ⟨o, t, log', hs, hr, rfl⟩ := run_cons_eq_some.mp h
    have h1 : P (pre ++ [(i, o)]) t := hstep pre s i o t hP hs
    have h2 := ih h1 hr
    rwa [List.append_assoc, List.singleton_append] at h2

/-- **The invariant rule.**  What holds of the initial state under the empty log and is
preserved by every step, the log growing by one entry, holds of every run. -/
theorem run_invariant {P : List (ι × ο) → σ → Prop} {s₀ s : σ} {is : List ι}
    {log : List (ι × ο)} (h0 : P [] s₀)
    (hstep : ∀ log s i o s', P log s → step s i = some (o, s') → P (log ++ [(i, o)]) s')
    (h : run step s₀ is = some (log, s)) : P log s :=
  run_invariant_from hstep h0 h

/-- **The totality rule.**  An invariant under which no step fails makes every run succeed. -/
theorem run_total {I : σ → Prop} (hI : ∀ s i, I s → ∃ o s', step s i = some (o, s') ∧ I s')
    (is : List ι) : ∀ s : σ, I s → ∃ log s', run step s is = some (log, s') ∧ I s' := by
  induction is with
  | nil =>
    intro s h
    exact ⟨[], s, rfl, h⟩
  | cons i is ih =>
    intro s h
    obtain ⟨o, t, hs, ht⟩ := hI s i h
    obtain ⟨log, s', hr, hs'⟩ := ih t ht
    exact ⟨(i, o) :: log, s', run_cons_eq_some.mpr ⟨o, t, log, hs, hr, rfl⟩, hs'⟩

end Lib
