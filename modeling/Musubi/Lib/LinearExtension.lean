/-
# The least linear extension of a strict order, by greedy selection

Given a finite list of elements and a strict order `r` on them, the greedy schedule repeatedly
emits the FIRST remaining element that no remaining element precedes.  When the list is in
increasing order of arrival, this schedule is

* total: a remaining set is never without a minimal element (`exists_minimal`);
* a linear extension: a permutation in which nothing follows what it precedes;
* the lexicographically LEAST linear extension (`greedy_spec`).

The last point is where greed pays: the head of any linear extension is minimal, so it is no
earlier than the first minimal element, and a tie leaves the same remainder on both sides.
-/
import Mathlib.Order.Defs.LinearOrder
import Mathlib.Order.RelClasses
import Mathlib.Data.List.Lex
import Mathlib.Data.List.Sort

namespace Lib

variable {ι : Type} {r : ι → ι → Prop}

/-! ## 1. Linear extensions -/

/-- `τ` lists the elements of `l`, and nothing comes after something it precedes. -/
structure LinearExtension (r : ι → ι → Prop) (l τ : List ι) : Prop where
  perm : τ.Perm l
  ordered : τ.Pairwise (fun a b => ¬ r b a)

/-- In a linear extension the smaller of two related elements stands at the smaller place. -/
theorem LinearExtension.place_lt [Std.Irrefl r] {l τ : List ι} (h : LinearExtension r l τ)
    {p q : ℕ} (hp : p < τ.length) (hq : q < τ.length) (hr : r τ[p] τ[q]) : p < q := by
  rcases Nat.lt_trichotomy p q with hlt | rfl | hgt
  · exact hlt
  · exact absurd hr (irrefl _)
  · exact absurd hr (List.pairwise_iff_getElem.mp h.ordered q p hq hp hgt)

/-- The head of a linear extension is minimal. -/
theorem LinearExtension.head_minimal [Std.Irrefl r] {l τ : List ι} {a : ι}
    (h : LinearExtension r l (a :: τ)) : ∀ j ∈ l, ¬ r j a := by
  intro j hj
  rcases List.mem_cons.mp (h.perm.mem_iff.mpr hj) with rfl | hj
  · exact irrefl _
  · exact List.rel_of_pairwise_cons h.ordered hj

/-- Dropping the head leaves a linear extension of what remains. -/
theorem LinearExtension.tail [DecidableEq ι] {l τ : List ι} {a : ι}
    (h : LinearExtension r l (a :: τ)) :
    LinearExtension r (l.erase a) τ where
  perm := by
    have hp := h.perm.erase a
    rwa [List.erase_cons_head] at hp
  ordered := (List.pairwise_cons.mp h.ordered).2

/-! ## 2. Minimal elements -/

/-- **A nonempty list has a minimal element.**  Along the list: a new head replaces the
minimal element found so far exactly when it precedes it. -/
theorem exists_minimal [Std.Irrefl r] [IsTrans ι r] {l : List ι} (hl : l ≠ []) :
    ∃ m ∈ l, ∀ j ∈ l, ¬ r j m := by
  induction l with
  | nil => exact absurd rfl hl
  | cons a l ih =>
    by_cases hnil : l = []
    · subst hnil
      refine ⟨a, List.mem_singleton_self a, fun j hj => ?_⟩
      rw [List.mem_singleton.mp hj]
      exact irrefl a
    · obtain ⟨m, hm, hmin⟩ := ih hnil
      by_cases ham : r a m
      · refine ⟨a, List.mem_cons_self, fun j hj hja => ?_⟩
        rcases List.mem_cons.mp hj with rfl | hj
        · exact irrefl _ hja
        · exact hmin j hj (IsTrans.trans _ _ _ hja ham)
      · refine ⟨m, List.mem_cons_of_mem _ hm, fun j hj hjm => ?_⟩
        rcases List.mem_cons.mp hj with rfl | hj
        · exact ham hjm
        · exact hmin j hj hjm

section FirstMinimal

variable [DecidableRel r]

variable (r) in
/-- The first element of the list that no element of the list precedes. -/
def firstMinimal (l : List ι) : Option ι := l.find? (fun i => decide (∀ j ∈ l, ¬ r j i))

theorem firstMinimal_mem {l : List ι} {i : ι} (h : firstMinimal r l = some i) : i ∈ l :=
  List.mem_of_find?_eq_some h

theorem firstMinimal_minimal {l : List ι} {i : ι} (h : firstMinimal r l = some i) :
    ∀ j ∈ l, ¬ r j i := by
  obtain ⟨hd, -⟩ := List.find?_eq_some_iff_append.mp h
  exact of_decide_eq_true hd

/-- Something is always ready. -/
theorem firstMinimal_isSome [Std.Irrefl r] [IsTrans ι r] {l : List ι} (h : l ≠ []) :
    ∃ i, firstMinimal r l = some i := by
  obtain ⟨m, hm, hmin⟩ := exists_minimal (r := r) h
  exact Option.isSome_iff_exists.mp
    (List.find?_isSome.mpr ⟨m, hm, decide_eq_true hmin⟩)

/-- On an increasing list the first minimal element is the least minimal element. -/
theorem firstMinimal_le [LinearOrder ι] {l : List ι} (hs : l.Pairwise (· < ·)) {i t : ι}
    (h : firstMinimal r l = some i) (ht : t ∈ l) (hmin : ∀ j ∈ l, ¬ r j t) : i ≤ t := by
  obtain ⟨-, as, bs, rfl, has⟩ := List.find?_eq_some_iff_append.mp h
  rcases List.mem_append.mp ht with hta | htb
  · have hn := has t hta
    rw [decide_eq_true hmin] at hn
    exact absurd hn (by decide)
  · rcases List.mem_cons.mp htb with rfl | htb
    · exact le_refl _
    · have hs' := (List.pairwise_append.mp hs).2.1
      exact le_of_lt (List.rel_of_pairwise_cons hs' htb)

end FirstMinimal

/-! ## 3. The greedy schedule -/

/-- No later than, position by position: equal, or smaller at the first difference. -/
def LexLE [LT ι] (σ τ : List ι) : Prop := σ = τ ∨ List.Lex (· < ·) σ τ

theorem LexLE.cons [LT ι] {σ τ : List ι} (a : ι) (h : LexLE σ τ) : LexLE (a :: σ) (a :: τ) := by
  rcases h with rfl | h
  · exact Or.inl rfl
  · exact Or.inr (List.Lex.cons h)

variable [LinearOrder ι] [DecidableRel r]

variable (r) in
/-- `n` rounds of selection from the remaining list. -/
def greedy : ℕ → List ι → Option (List ι)
  | 0, _ => some []
  | n + 1, l =>
    match firstMinimal r l with
    | none => none
    | some i => (greedy n (l.erase i)).map (i :: ·)

/-- **The greedy schedule is the least linear extension.** -/
theorem greedy_spec [Std.Irrefl r] [IsTrans ι r] (n : ℕ) :
    ∀ l : List ι, l.length = n → l.Pairwise (· < ·) →
      ∃ σ, greedy r n l = some σ ∧ LinearExtension r l σ ∧
        ∀ τ, LinearExtension r l τ → LexLE σ τ := by
  induction n with
  | zero =>
    intro l hn _
    obtain rfl := List.length_eq_zero_iff.mp hn
    refine ⟨[], rfl, ⟨List.Perm.refl _, List.Pairwise.nil⟩, fun τ hτ => ?_⟩
    exact Or.inl (List.perm_nil.mp hτ.perm).symm
  | succ n ih =>
    intro l hn hs
    obtain ⟨i, hi⟩ := firstMinimal_isSome (r := r) (l := l) (by rintro rfl; simp at hn)
    have hil : i ∈ l := firstMinimal_mem hi
    have hlen : (l.erase i).length = n := by
      rw [List.length_erase_of_mem hil, hn]
      rfl
    obtain ⟨σ, hσ, hext, hleast⟩ := ih (l.erase i) hlen (hs.sublist List.erase_sublist)
    refine ⟨i :: σ, by simp only [greedy, hi, hσ, Option.map_some], ⟨?_, ?_⟩, ?_⟩
    · exact (hext.perm.cons i).trans (List.perm_cons_erase hil).symm
    · refine List.pairwise_cons.mpr ⟨fun j hj => ?_, hext.ordered⟩
      exact firstMinimal_minimal hi j (List.mem_of_mem_erase (hext.perm.mem_iff.mp hj))
    · intro τ hτ
      cases τ with
      | nil => exact absurd (hτ.perm.nil_eq ▸ hil) List.not_mem_nil
      | cons t τ =>
        have ht : t ∈ l := hτ.perm.mem_iff.mp List.mem_cons_self
        -- the head of a linear extension is minimal, so greed has not overshot it
        rcases lt_or_eq_of_le (firstMinimal_le hs hi ht hτ.head_minimal) with hlt | rfl
        · exact Or.inr (List.Lex.rel hlt)
        · exact (hleast τ hτ.tail).cons i

end Lib
