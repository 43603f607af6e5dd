/-
# Sorted lists without repetition

A list that is sorted and has its repetitions taken out is a set written down: it has the members
of the list, each once and in order, and two lists with the same members give the same one.

The order has to be antisymmetric for this, as otherwise two members could stand in either order.
-/
import Mathlib.Data.List.Destutter
import Mathlib.Data.List.Sort

namespace Lib

variable {α : Type} [DecidableEq α] {r : α → α → Prop} [DecidableRel r]

theorem mem_destutter'_ne {a b : α} (l : List α) : a ∈ l.destutter' (· ≠ ·) b ↔ a ∈ b :: l := by
  induction l generalizing b with
  | nil => exact Iff.rfl
  | cons c l ih =>
    by_cases hbc : b = c
    · rw [List.destutter'_cons_neg _ (not_not_intro hbc), ih, hbc, List.mem_cons, List.mem_cons,
        List.mem_cons, ← or_assoc, or_self]
    · rw [List.destutter'_cons_pos _ hbc, List.mem_cons, ih, ← List.mem_cons]

theorem mem_destutter_ne {a : α} (l : List α) : a ∈ l.destutter (· ≠ ·) ↔ a ∈ l := by
  cases l with
  | nil => exact Iff.rfl
  | cons b l => exact mem_destutter'_ne l

/-- The members are those of the list. -/
theorem mem_sortDedup {a : α} (l : List α) :
    a ∈ (l.insertionSort r).destutter (· ≠ ·) ↔ a ∈ l := by
  rw [mem_destutter_ne, List.mem_insertionSort]

variable [Std.Total r] [IsTrans α r] [Std.Antisymm r]

/-- Each member comes once, and in order. -/
theorem pairwise_sortDedup (l : List α) :
    ((l.insertionSort r).destutter (· ≠ ·)).Pairwise fun a b => r a b ∧ a ≠ b := by
  have htrans : IsTrans α fun a b => r a b ∧ a ≠ b := by
    refine ⟨fun a b c hab hbc => ⟨IsTrans.trans a b c hab.1 hbc.1, ?_⟩⟩
    rintro rfl
    exact hab.2 (Std.Antisymm.antisymm a b hab.1 hbc.1)
  have hne : ((l.insertionSort r).destutter (· ≠ ·)).IsChain (· ≠ ·) := List.isChain_destutter _ _
  have hle : ((l.insertionSort r).destutter (· ≠ ·)).IsChain r :=
    ((List.pairwise_insertionSort r l).sublist (List.destutter_sublist _ _)).isChain
  rw [List.isChain_iff_forall_rel_of_append_cons_cons] at hne hle
  refine List.isChain_iff_pairwise.mp (List.isChain_iff_forall_rel_of_append_cons_cons.mpr ?_)
  intro a b before after hsplit
  exact ⟨hle hsplit, hne hsplit⟩

/-- **A set is written down in one way.** -/
theorem sortDedup_congr {l l' : List α} (h : ∀ a, a ∈ l ↔ a ∈ l') :
    (l.insertionSort r).destutter (· ≠ ·) = (l'.insertionSort r).destutter (· ≠ ·) := by
  have hnodup (l : List α) : ((l.insertionSort r).destutter (· ≠ ·)).Nodup :=
    (pairwise_sortDedup l).imp And.right
  have hsorted (l : List α) : ((l.insertionSort r).destutter (· ≠ ·)).Pairwise r :=
    (pairwise_sortDedup l).imp And.left
  refine List.Perm.eq_of_pairwise ?_ (hsorted l) (hsorted l') ?_
  · intro a b _ _ hab hba
    exact Std.Antisymm.antisymm a b hab hba
  · rw [List.perm_ext_iff_of_nodup (hnodup l) (hnodup l')]
    intro a
    rw [mem_sortDedup, mem_sortDedup, h]

end Lib
