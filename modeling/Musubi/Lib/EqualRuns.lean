/-
# Runs of equal values

The elements of a list may have values, and a run is a stretch of elements that have one and the
same.  A loop that remembers the first element of the run it is in knows, behind each prefix,
where the run began that the prefix ends in.

`RunFrom` says "maximal run" without a loop: all have the value, and the element in front, if
there is one, has another or none.  An element without a value is in no run and ends the one
before it.
-/
import Mathlib.Data.List.Basic
import Mathlib.Data.List.Induction

namespace Lib

variable {α δ : Type} (val : α → Option δ)

/-- The list is a maximal run from `first` on, behind `before`. -/
structure RunFrom (before : List α) (first : α) (between : List α) (d : δ) : Prop where
  first_value : val first = some d
  same : ∀ x ∈ between, val x = some d
  maximal : ∀ x ∈ before.getLast?, val x ≠ some d

variable {val}

/-- Every element of a run has its value, and so has the last of the list that it ends. -/
theorem RunFrom.last_value {before between : List α} {a : α} {d : δ}
    (hrun : RunFrom val before a between d) :
    ∃ y, (before ++ a :: between).getLast? = some y ∧ val y = some d := by
  have hne : a :: between ≠ [] := List.cons_ne_nil _ _
  refine ⟨(a :: between).getLast hne, ?_, ?_⟩
  · rw [List.getLast?_append, List.getLast?_eq_some_getLast hne, Option.some_or]
  · rcases List.mem_cons.mp (List.getLast_mem hne) with h | h
    · rw [h]
      exact hrun.first_value
    · exact hrun.same _ h

/-- An element that the state behind its prefix lets pass is the first one or comes later. -/
theorem exists_split_cons_iff {σ : Type} {step : σ → α → σ} {passes : σ → α → Prop} {s : σ}
    {x e : α} {l : List α} :
    (∃ before after, x :: l = before ++ e :: after ∧ passes (before.foldl step s) e) ↔
      e = x ∧ passes s x ∨
        ∃ before after, l = before ++ e :: after ∧ passes (before.foldl step (step s x)) e := by
  constructor
  · rintro ⟨before, after, hsplit, hpasses⟩
    cases before with
    | nil =>
      obtain ⟨rfl, -⟩ := List.cons.inj hsplit
      exact Or.inl ⟨rfl, hpasses⟩
    | cons y before =>
      obtain ⟨rfl, htail⟩ := List.cons.inj hsplit
      exact Or.inr ⟨before, after, htail, hpasses⟩
  · rintro (⟨rfl, hpasses⟩ | ⟨before, after, hsplit, hpasses⟩)
    · exact ⟨[], l, rfl, hpasses⟩
    · exact ⟨x :: before, after, by rw [hsplit, List.cons_append], hpasses⟩

variable (val) [DecidableEq δ]

/-- The first element of the run so far, behind one more element. -/
def stepFirst (first : Option α) (x : α) : Option α :=
  match val x with
  | none => none
  | some d => if first.bind val = some d then first else some x

/-- The first element of the run that the list ends in. -/
def endingRun (l : List α) : Option α := l.foldl (stepFirst val) none

variable {val}

theorem endingRun_append_singleton (l : List α) (x : α) :
    endingRun val (l ++ [x]) = stepFirst val (endingRun val l) x := by
  rw [endingRun, List.foldl_append]
  rfl

/-- The loop is in no run exactly when the last element has no value. -/
theorem endingRun_eq_none_iff (l : List α) :
    endingRun val l = none ↔ ∀ x ∈ l.getLast?, val x = none := by
  induction l using List.reverseRecOn with
  | nil => exact iff_of_true rfl fun _ h => nomatch h
  | append_singleton l x _ =>
    have hlast : (∀ y ∈ (l ++ [x]).getLast?, val y = none) ↔ val x = none := by
      rw [List.getLast?_append]
      simp
    rw [hlast, endingRun_append_singleton, stepFirst]
    cases hx : val x with
    | none => exact iff_of_true rfl rfl
    | some d =>
      refine iff_of_false ?_ nofun
      dsimp only
      split
      · rename_i hsame
        intro hnone
        rw [hnone] at hsame
        cases hsame
      · exact nofun

/-- **What the loop remembers** is the first element of the maximal run at the end.  By induction
from the back of the list, as the loop goes. -/
theorem endingRun_eq_some_iff (l : List α) : ∀ {a : α}, endingRun val l = some a ↔
    ∃ before between d, l = before ++ a :: between ∧ RunFrom val before a between d := by
  induction l using List.reverseRecOn with
  | nil =>
    intro a
    refine iff_of_false nofun ?_
    rintro ⟨before, between, d, hl, -⟩
    exact List.append_ne_nil_of_right_ne_nil _ (List.cons_ne_nil _ _) hl.symm
  | append_singleton l x ih =>
    intro a
    rw [endingRun_append_singleton]
    constructor
    · intro h
      unfold stepFirst at h
      cases hx : val x with
      | none =>
        rw [hx] at h
        cases h
      | some d =>
        rw [hx] at h
        dsimp only at h
        split at h
        · -- the run goes on
          rename_i hsame
          obtain ⟨before, between, d', rfl, hrun⟩ := ih.mp h
          have hd : d' = d := by
            rw [h] at hsame
            exact Option.some.inj (hrun.first_value.symm.trans hsame)
          subst hd
          refine ⟨before, between ++ [x], d', by simp, hrun.first_value, ?_, hrun.maximal⟩
          intro y hy
          rcases List.mem_append.mp hy with hy | hy
          · exact hrun.same y hy
          · rw [List.mem_singleton.mp hy]
            exact hx
        · -- a run begins
          rename_i hother
          cases h
          refine ⟨l, [], d, rfl, hx, (fun y hy => nomatch hy), ?_⟩
          intro y hy hsame
          cases hfirst : endingRun val l with
          | none => rw [(endingRun_eq_none_iff l).mp hfirst y hy] at hsame; cases hsame
          | some b =>
            obtain ⟨before, between, d', rfl, hrun⟩ := ih.mp hfirst
            obtain ⟨z, hz, hlast⟩ := hrun.last_value
            obtain rfl : z = y := Option.some.inj (hz.symm.trans hy)
            refine hother ?_
            rw [hfirst, Option.bind_some, hrun.first_value, ← hlast, hsame]
    · rintro ⟨before, between, d, hl, hrun⟩
      rcases List.eq_nil_or_concat' between with rfl | ⟨between, y, rfl⟩
      · obtain ⟨rfl, rfl⟩ : l = before ∧ x = a := by simpa using hl
        unfold stepFirst
        rw [hrun.first_value]
        dsimp only
        rw [if_neg]
        intro hsame
        -- the run before it has another value
        cases hfirst : endingRun val l with
        | none =>
          rw [hfirst] at hsame
          cases hsame
        | some b =>
          obtain ⟨before, between, d', rfl, hbefore⟩ := ih.mp hfirst
          rw [hfirst, Option.bind_some, hbefore.first_value] at hsame
          cases hsame
          obtain ⟨z, hz, hlast⟩ := hbefore.last_value
          exact hrun.maximal z hz hlast
      · have hl' : l ++ [x] = (before ++ a :: between) ++ [y] := by simpa using hl
        obtain ⟨rfl, hxy⟩ := List.append_inj' hl' rfl
        obtain rfl : x = y := by simpa using hxy
        have hbefore : endingRun val (before ++ a :: between) = some a :=
          ih.mpr ⟨before, between, d, rfl, hrun.first_value,
            fun z hz => hrun.same z (List.mem_append_left _ hz), hrun.maximal⟩
        unfold stepFirst
        rw [hbefore, hrun.same x (by simp)]
        dsimp only
        rw [Option.bind_some, hrun.first_value, if_pos rfl]

end Lib
