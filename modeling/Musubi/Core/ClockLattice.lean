/-
# Clocks as a lattice

`vector_clock.rs`, `increment` and `merge`.  Read as functions, a merge is the join of the two
clocks and an increment raises one counter, so what clocks do is what functions into a lattice do.
A merge is known by its upper bounds, and these need no thought about which keys are registered: a
bound of the merge is a bound of every entry of either clock, and the loop over the entries raises
one counter at a time (`reading_raise_le_iff`).

Two clocks that read the same need not be the same map, since a counter of zero may be registered
or missing.  So the laws are stated with `relation`, which cannot see the difference: `Equal` is
an equivalence and not equality, and a zero entry may be put in or left out
(`relation_insert_zero`).

Counters are `u64` and an increment saturates.  At the largest value the clock stays where it is,
and the increment is `Equal` to the clock before it instead of later; everywhere else it is
strictly later.  That is the only place where the width shows.
-/
import Mathlib.Order.Lattice
import Musubi.Core.VectorClock

namespace Musubi.Core

open Lib (BTreeMap)

namespace VectorClock

/-! ## 1. Readings -/

theorem reading_lt (c : VectorClock) (k : String) : c.reading k < 2 ^ 64 := (c.get k).toNat_lt

theorem toNat_saturatingAdd_one (a : UInt64) :
    (saturatingAdd a 1).toNat = min (a.toNat + 1) (2 ^ 64 - 1) := by
  have ha := a.toNat_lt
  unfold saturatingAdd
  rw [UInt64.toNat_one]
  split
  · next h =>
    rw [UInt64.toNat_add, UInt64.toNat_one, Nat.mod_eq_of_lt h]
    omega
  · next h =>
    change 2 ^ 64 - 1 = _
    omega

/-- One binding changes one counter: the reading of a clock is a function on all names, with zero
where there is no entry. -/
theorem reading_insert (c : VectorClock) (k : String) (v : UInt64) :
    reading ⟨c.counters.insert k v⟩ = Function.update c.reading k v.toNat := by
  funext k'
  rw [reading, get, BTreeMap.get?_insert, Function.update_apply]
  by_cases h : k = k'
  · rw [if_pos h, if_pos h.symm]
    rfl
  · rw [if_neg h, if_neg (Ne.symm h)]
    rfl

theorem reading_increment (c : VectorClock) (k : String) :
    (c.increment k).reading = Function.update c.reading k (min (c.reading k + 1) (2 ^ 64 - 1)) := by
  rw [increment, reading_insert, toNat_saturatingAdd_one]
  rfl

/-! ## 2. Merges -/

/-- The upper bounds of a clock are those of its entries, since a name without an entry reads zero
and bounds nothing. -/
theorem reading_le_iff (c : VectorClock) (r : String → ℕ) :
    c.reading ≤ r ↔ ∀ e ∈ c.counters.entries, e.2.toNat ≤ r e.1 := by
  constructor
  · rintro h ⟨k, v⟩ he
    have hk := h k
    rw [reading, get, BTreeMap.mem_entries_iff.mp he] at hk
    exact hk
  · intro h k
    cases hg : c.counters.get? k with
    | none => simp [reading, get, hg]
    | some v =>
      rw [reading, get, hg]
      exact h (k, v) (BTreeMap.mem_entries_iff.mpr hg)

/-- One entry of a merge raises its counter and no other.  Said by upper bounds, so that the loop
over all entries is a conjunction and needs no function of its own. -/
theorem reading_raise_le_iff (c : VectorClock) (e : String × UInt64) (r : String → ℕ) :
    reading ⟨c.counters.insert e.1 (if c.get e.1 < e.2 then e.2 else c.get e.1)⟩ ≤ r ↔
      c.reading ≤ r ∧ e.2.toNat ≤ r e.1 := by
  have hraise : (if c.get e.1 < e.2 then e.2 else c.get e.1).toNat =
      max (c.reading e.1) e.2.toNat := by
    unfold reading
    split
    · next h => rw [max_eq_right (Nat.le_of_lt (UInt64.lt_iff_toNat_lt.mp h))]
    · next h => rw [max_eq_left (Nat.le_of_not_lt (mt UInt64.lt_iff_toNat_lt.mpr h))]
  rw [reading_insert, hraise, update_le_iff, max_le_iff]
  constructor
  · rintro ⟨⟨hc, he⟩, hrest⟩
    refine ⟨fun k => ?_, he⟩
    by_cases hk : k = e.1
    · rw [hk]
      exact hc
    · exact hrest k hk
  · rintro ⟨hc, he⟩
    exact ⟨⟨hc e.1, he⟩, fun k _ => hc k⟩

/-- **The upper bounds of a merge are those of both clocks.** -/
theorem reading_merge_le_iff (c d : VectorClock) (r : String → ℕ) :
    (c.merge d).reading ≤ r ↔ c.reading ≤ r ∧ d.reading ≤ r := by
  rw [reading_le_iff d, merge]
  generalize d.counters.entries = es
  induction es generalizing c with
  | nil => simp
  | cons e es ih =>
    rw [List.foldl_cons, ih, reading_raise_le_iff, List.forall_mem_cons, and_assoc]

/-- A merge is the join of the two clocks, because it has the same upper bounds. -/
theorem reading_merge (c d : VectorClock) : (c.merge d).reading = c.reading ⊔ d.reading :=
  eq_of_forall_ge_iff fun r => (reading_merge_le_iff c d r).trans sup_le_iff.symm

/-! ## 3. The order -/

theorem reading_eq_iff {c d : VectorClock} : c.reading = d.reading ↔ ∀ k, c.get k = d.get k := by
  rw [funext_iff]
  exact forall_congr' fun k => UInt64.toNat_inj

theorem reading_le_reading_iff {c d : VectorClock} :
    c.reading ≤ d.reading ↔ ∀ k, c.get k ≤ d.get k :=
  forall_congr' fun _ => UInt64.le_iff_toNat_le.symm

/-- `Equal` means that every counter reads the same.  Two maps that differ by zero entries are
equal in this sense and not as maps. -/
theorem relation_equal_iff {c d : VectorClock} : c.relation d = .equal ↔ c.reading = d.reading :=
  (relation_spec c d).1.trans le_antisymm_iff.symm

/-- The order that `relation` decides, without the question whether it is strict: the one clock
happens before the other or reads the same. -/
def Precedes (c d : VectorClock) : Prop := c.relation d = .happensBefore ∨ c.relation d = .equal

theorem precedes_iff {c d : VectorClock} : c.Precedes d ↔ c.reading ≤ d.reading := by
  rw [Precedes, relation_happensBefore_iff, relation_equal_iff]
  exact le_iff_lt_or_eq.symm

/-- A counter that is smaller somewhere is what keeps two clocks from the order. -/
theorem not_reading_le_iff {c d : VectorClock} :
    ¬ c.reading ≤ d.reading ↔ ∃ k, d.get k < c.get k := by
  rw [reading_le_reading_iff, not_forall]
  simp only [UInt64.not_le]

/-- The four answers by the counters: each of them says exactly which of the two inequalities
hold, so no two can be given at once. -/
theorem relation_iff_get (c d : VectorClock) :
    (c.relation d = .equal ↔ ∀ k, c.get k = d.get k) ∧
      (c.relation d = .happensBefore ↔ (∀ k, c.get k ≤ d.get k) ∧ ∃ k, c.get k < d.get k) ∧
      (c.relation d = .happensAfter ↔ (∀ k, d.get k ≤ c.get k) ∧ ∃ k, d.get k < c.get k) ∧
      (c.relation d = .concurrent ↔ (∃ k, c.get k < d.get k) ∧ ∃ k, d.get k < c.get k) := by
  obtain ⟨-, hbefore, hafter, hconcurrent⟩ := relation_spec c d
  refine ⟨relation_equal_iff.trans reading_eq_iff, ?_, ?_, ?_⟩
  · rw [hbefore, reading_le_reading_iff, not_reading_le_iff]
  · rw [hafter, not_reading_le_iff, reading_le_reading_iff, and_comm]
  · rw [hconcurrent, not_reading_le_iff, not_reading_le_iff, and_comm]

/-- An increment goes ahead as far as there is room.  A counter at its largest value saturates,
and the clock is then equal to itself. -/
theorem relation_increment (c : VectorClock) (k : String) : c.relation (c.increment k) =
    if c.get k = 0xFFFFFFFFFFFFFFFF then .equal else .happensBefore := by
  have hlt := c.reading_lt k
  split
  · next h =>
    have hk : min (c.reading k + 1) (2 ^ 64 - 1) = c.reading k := by
      rw [reading, h]
      rfl
    rw [relation_equal_iff, reading_increment, hk, Function.update_eq_self]
  · next h =>
    have hk : c.reading k ≠ 2 ^ 64 - 1 := fun heq => h (UInt64.toNat_inj.mp heq)
    rw [relation_happensBefore_iff, reading_increment, lt_update_self_iff]
    omega

/-- A zero entry is not seen: it reads like an absent one, so a map with it is related to the
other as equal. -/
theorem relation_insert_zero {c : VectorClock} {k : String} (h : c.get k = 0) :
    c.relation ⟨c.counters.insert k 0⟩ = .equal := by
  have hk : (0 : UInt64).toNat = c.reading k := by
    rw [reading, h]
  rw [relation_equal_iff, reading_insert, hk, Function.update_eq_self]

/-! ## 4. The lattice -/

/-- **Clocks form a lattice**: `relation` is the product order with missing counters read as zero,
a merge is the least upper bound, and an increment is strictly later unless its counter is full.
The least upper bound is one up to `Equal`, and in the same sense the merge is idempotent,
commutative and associative.  Nothing is assumed of the clocks: any map from names to counters is
one. -/
theorem clocks_lattice :
    (∀ c d : VectorClock,
      (c.relation d = .equal ↔ ∀ k, c.get k = d.get k) ∧
      (c.relation d = .happensBefore ↔ (∀ k, c.get k ≤ d.get k) ∧ ∃ k, c.get k < d.get k) ∧
      (c.relation d = .happensAfter ↔ (∀ k, d.get k ≤ c.get k) ∧ ∃ k, d.get k < c.get k) ∧
      (c.relation d = .concurrent ↔ (∃ k, c.get k < d.get k) ∧ ∃ k, d.get k < c.get k)) ∧
    (Equivalence fun c d : VectorClock => c.relation d = .equal) ∧
    (∀ (c : VectorClock) k, c.get k = 0 → c.relation ⟨c.counters.insert k 0⟩ = .equal) ∧
    (∀ c : VectorClock, c.relation c ≠ .happensBefore) ∧
    (∀ c d e : VectorClock, c.relation d = .happensBefore → d.relation e = .happensBefore →
      c.relation e = .happensBefore) ∧
    (∀ c d : VectorClock, c.relation d = .happensBefore ↔ d.relation c = .happensAfter) ∧
    (∀ c d : VectorClock, c.Precedes (c.merge d) ∧ d.Precedes (c.merge d) ∧
      ∀ e, c.Precedes e → d.Precedes e → (c.merge d).Precedes e) ∧
    (∀ c d : VectorClock, (c.merge d).relation (d.merge c) = .equal) ∧
    (∀ c d e : VectorClock, ((c.merge d).merge e).relation (c.merge (d.merge e)) = .equal) ∧
    (∀ c : VectorClock, (c.merge c).relation c = .equal) ∧
    ∀ (c : VectorClock) k, c.relation (c.increment k) =
      if c.get k = 0xFFFFFFFFFFFFFFFF then .equal else .happensBefore := by
  refine ⟨relation_iff_get, ?_, fun c k => relation_insert_zero, ?_, ?_, ?_, ?_, ?_, ?_, ?_,
    relation_increment⟩
  · refine ⟨fun c => ?_, fun h => ?_, fun h h' => ?_⟩
    · exact relation_equal_iff.mpr rfl
    · exact relation_equal_iff.mpr (relation_equal_iff.mp h).symm
    · exact relation_equal_iff.mpr ((relation_equal_iff.mp h).trans (relation_equal_iff.mp h'))
  · intro c h
    exact lt_irrefl _ (relation_happensBefore_iff.mp h)
  · intro c d e h h'
    exact relation_happensBefore_iff.mpr
      (lt_trans (relation_happensBefore_iff.mp h) (relation_happensBefore_iff.mp h'))
  · intro c d
    rw [relation_happensBefore_iff, relation_happensAfter_iff]
  · intro c d
    simp only [precedes_iff, reading_merge]
    exact ⟨le_sup_left, le_sup_right, fun e => sup_le⟩
  · intro c d
    rw [relation_equal_iff, reading_merge, reading_merge, sup_comm]
  · intro c d e
    rw [relation_equal_iff, reading_merge, reading_merge, reading_merge, reading_merge, sup_assoc]
  · intro c
    rw [relation_equal_iff, reading_merge, sup_idem]

end VectorClock

end Musubi.Core
