/-
# Sweeping intervals

Closed intervals in the order of their starts are gone through once.  The open interval takes in
the next one if that starts within it, and is closed otherwise; the lengths of what has been
closed and of what is open add up to the measure of the union (`sweep_eq_volume`).  So the sum
does not depend on more of the intervals than the set that they cover.

The invariant (`Swept`) says where things are: what has been closed lies in front of the open
interval, its length is the measure of the set, and an interval still to come starts no earlier
than those before it.  So one step either extends the open interval, or closes it and opens
another that has no more than an end in common with what is behind.
-/
import Mathlib.MeasureTheory.Measure.Lebesgue.Basic
import Mathlib.MeasureTheory.Measure.Real

namespace Lib

open MeasureTheory

/-! ## 1. The set that is covered -/

/-- The points within the intervals. -/
def covered (spans : List (ℤ × ℤ)) : Set ℝ := {x | ∃ p ∈ spans, x ∈ Set.Icc (p.1 : ℝ) p.2}

@[simp] theorem covered_nil : covered [] = ∅ := by
  ext x
  simp [covered]

theorem covered_append (spans spans' : List (ℤ × ℤ)) :
    covered (spans ++ spans') = covered spans ∪ covered spans' := by
  ext x
  simp only [covered, List.mem_append, Set.mem_ofPred_eq, Set.mem_union]
  constructor
  · rintro ⟨p, hp | hp, hx⟩
    · exact Or.inl ⟨p, hp, hx⟩
    · exact Or.inr ⟨p, hp, hx⟩
  · rintro (⟨p, hp, hx⟩ | ⟨p, hp, hx⟩)
    · exact ⟨p, Or.inl hp, hx⟩
    · exact ⟨p, Or.inr hp, hx⟩

theorem covered_singleton (p : ℤ × ℤ) : covered [p] = Set.Icc (p.1 : ℝ) p.2 := by
  ext x
  simp [covered]

/-- Intervals within others cover no more. -/
theorem covered_subset {spans spans' : List (ℤ × ℤ)}
    (h : ∀ p ∈ spans, ∃ q ∈ spans', q.1 ≤ p.1 ∧ p.2 ≤ q.2) : covered spans ⊆ covered spans' := by
  rintro x ⟨p, hp, hleft, hright⟩
  obtain ⟨q, hq, hstart, hstop⟩ := h p hp
  refine ⟨q, hq, le_trans ?_ hleft, hright.trans ?_⟩
  · exact_mod_cast hstart
  · exact_mod_cast hstop

theorem covered_perm {spans spans' : List (ℤ × ℤ)} (h : spans.Perm spans') :
    covered spans = covered spans' :=
  Set.Subset.antisymm
    (covered_subset fun p hp => ⟨p, h.mem_iff.mp hp, Int.le_refl _, Int.le_refl _⟩)
    (covered_subset fun p hp => ⟨p, h.mem_iff.mpr hp, Int.le_refl _, Int.le_refl _⟩)

/-! ## 2. The sweep -/

/-- The length that is closed, and the open interval. -/
structure Sweep where
  closed : ℤ
  current : Option (ℤ × ℤ)

namespace Sweep

def start : Sweep := ⟨0, none⟩

def step (s : Sweep) (p : ℤ × ℤ) : Sweep :=
  match s.current with
  | some (a, b) =>
    if p.1 ≤ b then { s with current := some (a, max b p.2) } else ⟨s.closed + (b - a), some p⟩
  | none => { s with current := some p }

def total (s : Sweep) : ℤ :=
  match s.current with
  | some (a, b) => s.closed + (b - a)
  | none => s.closed

end Sweep

def sweep (spans : List (ℤ × ℤ)) : ℤ := (spans.foldl Sweep.step .start).total

/-- What has been gone through is what is closed, all of it in front of the open interval, and that
interval. -/
inductive Swept : List (ℤ × ℤ) → Sweep → Prop
  | start : Swept [] .start
  | running {done : List (ℤ × ℤ)} {closed a b : ℤ} (part : Set ℝ) (hle : a ≤ b)
      (hfrom : ∃ p ∈ done, p.1 = a) (hfinite : volume part ≠ ⊤)
      (hclosed : volume.real part = closed) (hbefore : ∀ x ∈ part, x < a)
      (hcovered : covered done = part ∪ Set.Icc (a : ℝ) b) : Swept done ⟨closed, some (a, b)⟩

namespace Swept

theorem total_eq {done : List (ℤ × ℤ)} {s : Sweep} (h : Swept done s) :
    (s.total : ℝ) = volume.real (covered done) := by
  cases h with
  | start => simp [Sweep.total, Sweep.start]
  | @running done closed a b part hle hfrom hfinite hclosed hbefore hcovered =>
    have hdisjoint : Disjoint part (Set.Icc (a : ℝ) b) :=
      Set.disjoint_left.mpr fun x hx hx' => absurd (hbefore x hx) (not_lt.mpr hx'.1)
    have hlen : volume.real (Set.Icc (a : ℝ) b) = b - a :=
      Real.volume_real_Icc_of_le (by exact_mod_cast hle)
    have htotal : (⟨closed, some (a, b)⟩ : Sweep).total = closed + (b - a) := rfl
    rw [hcovered, measureReal_union hdisjoint measurableSet_Icc hfinite measure_Icc_lt_top.ne,
      hclosed, hlen, htotal]
    push_cast
    rfl

/-- **One more interval**, which starts no earlier than those before it. -/
theorem step {done : List (ℤ × ℤ)} {s : Sweep} (h : Swept done s) {p : ℤ × ℤ}
    (hp : p.1 ≤ p.2) (hsorted : ∀ q ∈ done, q.1 ≤ p.1) : Swept (done ++ [p]) (s.step p) := by
  have hmem : p ∈ done ++ [p] := List.mem_append_right _ (List.mem_singleton_self _)
  have htotal := h.total_eq
  cases h with
  | start =>
    refine .running ∅ hp ⟨p, hmem, rfl⟩ (by simp) (by simp [Sweep.start]) (fun x hx => hx.elim) ?_
    rw [List.nil_append, covered_singleton, Set.empty_union]
  | @running done closed a b part hle hfrom hfinite hclosed hbefore hcovered =>
    obtain ⟨q, hq, rfl⟩ := hfrom
    have hstart : q.1 ≤ p.1 := hsorted q hq
    have hstart' : (q.1 : ℝ) ≤ p.1 := by exact_mod_cast hstart
    by_cases hin : p.1 ≤ b
    · have hstep : (⟨closed, some (q.1, b)⟩ : Sweep).step p =
          ⟨closed, some (q.1, max b p.2)⟩ := if_pos hin
      have hjoin : Set.Icc (q.1 : ℝ) b ∪ Set.Icc (p.1 : ℝ) p.2 =
          Set.Icc (q.1 : ℝ) (max b p.2 : ℤ) := by
        rw [Set.Icc_union_Icc' (by exact_mod_cast hin) (by exact_mod_cast hstart.trans hp),
          min_eq_left hstart', Int.cast_max]
      rw [hstep]
      refine .running part (hle.trans (le_max_left _ _)) ⟨q, List.mem_append_left _ hq, rfl⟩ hfinite
        hclosed hbefore ?_
      rw [covered_append, hcovered, covered_singleton, Set.union_assoc, hjoin]
    · have hstep : (⟨closed, some (q.1, b)⟩ : Sweep).step p =
          ⟨closed + (b - q.1), some (p.1, p.2)⟩ := if_neg hin
      have hb : (b : ℝ) < p.1 := by exact_mod_cast not_le.mp hin
      rw [hstep]
      refine .running (covered done) hp ⟨p, hmem, rfl⟩ ?_ htotal.symm ?_ ?_
      · rw [hcovered]
        exact measure_union_ne_top hfinite measure_Icc_lt_top.ne
      · intro x hx
        rw [hcovered] at hx
        rcases hx with hx | hx
        · exact (hbefore x hx).trans_le hstart'
        · exact hx.2.trans_lt hb
      · rw [covered_append, covered_singleton]

end Swept

/-- **The sweep adds up the measure of the union.** Intervals that run backwards are excluded, and
equal starts may come in any order. -/
theorem sweep_eq_volume {spans : List (ℤ × ℤ)} (hsorted : spans.Pairwise fun p q => p.1 ≤ q.1)
    (hspans : ∀ p ∈ spans, p.1 ≤ p.2) : (sweep spans : ℝ) = volume.real (covered spans) := by
  have hrun (more : List (ℤ × ℤ)) : ∀ (done : List (ℤ × ℤ)) (s : Sweep), spans = done ++ more →
      Swept done s → Swept spans (more.foldl Sweep.step s) := by
    induction more with
    | nil =>
      intro done s hall h
      rw [hall, List.append_nil]
      exact h
    | cons p more ih =>
      intro done s hall h
      rw [hall, List.pairwise_append] at hsorted
      refine ih (done ++ [p]) _ (by rw [hall, List.append_assoc, List.singleton_append])
        (h.step (hspans p ?_) fun q hq => hsorted.2.2 q hq p List.mem_cons_self)
      rw [hall]
      exact List.mem_append_right _ List.mem_cons_self
  exact (hrun spans [] .start rfl .start).total_eq

end Lib
