/-
# Grouping by a key

A list is grouped by a key: one group for each key, in the order in which the keys come up, and
each group in the order of the list.  Which groups there are depends on which elements have equal
keys and on nothing else of the keys, so two ways to compute a key may be exchanged when they tell
the same elements apart.
-/
import Mathlib.Data.List.Basic

namespace Lib

variable {α κ κ' : Type}

/-- The keys tell the same elements of the list apart. -/
def SameClasses (key : α → κ) (key' : α → κ') (l : List α) : Prop :=
  ∀ x ∈ l, ∀ y ∈ l, key x = key y ↔ key' x = key' y

variable [DecidableEq κ] [DecidableEq κ']

/-- The first element with each key. -/
def firsts (key : α → κ) : List α → List α
  | [] => []
  | x :: l => x :: (firsts key l).filter fun y => key y ≠ key x

/-- The groups. -/
def groupsBy (key : α → κ) (l : List α) : List (List α) :=
  (firsts key l).map fun x => l.filter fun y => key y = key x

variable {key : α → κ} {key' : α → κ'}

theorem firsts_sublist : ∀ l : List α, (firsts key l).Sublist l
  | [] => List.Sublist.slnil
  | x :: l => (List.filter_sublist.trans (firsts_sublist l)).cons_cons x

theorem firsts_congr {l : List α} (h : SameClasses key key' l) : firsts key l = firsts key' l := by
  induction l with
  | nil => rfl
  | cons x l ih =>
    have hrest : SameClasses key key' l :=
      fun y hy z hz => h y (List.mem_cons_of_mem x hy) z (List.mem_cons_of_mem x hz)
    rw [firsts, firsts, ih hrest]
    refine congrArg (x :: ·) (List.filter_congr fun y hy => decide_eq_decide.mpr (not_congr ?_))
    exact h y (List.mem_cons_of_mem x ((firsts_sublist l).mem hy)) x List.mem_cons_self

/-- **Keys that tell the same elements apart make the same groups**, with the same members in the
same order. -/
theorem groupsBy_congr {l : List α} (h : SameClasses key key' l) :
    groupsBy key l = groupsBy key' l := by
  unfold groupsBy
  rw [firsts_congr h]
  refine List.map_congr_left fun x hx => List.filter_congr fun y hy => decide_eq_decide.mpr ?_
  exact h y hy x ((firsts_sublist l).mem hx)

end Lib
