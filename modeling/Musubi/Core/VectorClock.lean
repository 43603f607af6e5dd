/-
# `VectorClock`: per-source counters and the causal relation between them

`vector_clock.rs`.  A clock is an ordered map from source ids to `u64` counters, a missing
entry reading as zero.  `relation` walks the keys of both clocks and keeps two flags, one for
"smaller somewhere" and one for "larger somewhere".

The abstract reading of a clock is the FUNCTION `reading c : String → ℕ`, and the whole
module comes down to one theorem: the four answers of `relation` are the four ways two
functions can stand in the pointwise order (`relation_spec`).  Strictness and transitivity of
`HappensBefore` are then Mathlib's `<` on a product order, and no client looks inside the map
again.
-/
import Mathlib.Order.Basic
import Mathlib.Data.String.Basic
import Musubi.Lib.BTreeMap

namespace Musubi.Core

open Lib (BTreeMap)

/-! ## 1. The source -/

/-- `u64::saturating_add`. -/
def saturatingAdd (a b : UInt64) : UInt64 :=
  if a.toNat + b.toNat < 2 ^ 64 then a + b else 0xFFFFFFFFFFFFFFFF

structure VectorClock where
  counters : BTreeMap String UInt64
deriving DecidableEq

inductive CausalRelation
  | happensBefore
  | happensAfter
  | equal
  | concurrent
deriving DecidableEq, Repr

namespace VectorClock

def new : VectorClock := ⟨BTreeMap.empty⟩

def single (sourceId : String) (count : UInt64) : VectorClock :=
  ⟨BTreeMap.empty.insert sourceId count⟩

/-- The current counter of a source, `0` when it is not registered. -/
def get (c : VectorClock) (sourceId : String) : UInt64 := (c.counters.get? sourceId).getD 0

def increment (c : VectorClock) (sourceId : String) : VectorClock :=
  ⟨c.counters.insert sourceId (saturatingAdd (c.get sourceId) 1)⟩

/-- Componentwise maximum: every entry of `other` is entered at zero if missing and raised. -/
def merge (c other : VectorClock) : VectorClock :=
  other.counters.entries.foldl
    (fun acc e => ⟨acc.counters.insert e.1 (if acc.get e.1 < e.2 then e.2 else acc.get e.1)⟩) c

/-- The flags `(self_lt, self_gt)` of the loop in `relation`, after the keys `ks`. -/
def relationFlags (c other : VectorClock) (ks : List String) : Bool × Bool :=
  ks.foldl
    (fun flags k =>
      let a := c.get k
      let b := other.get k
      (flags.1 || decide (a < b), flags.2 || decide (b < a)))
    (false, false)

/-- `relation`: the keys of both clocks, collected into an ordered set, then the two flags. -/
def relation (c other : VectorClock) : CausalRelation :=
  let ks := (BTreeMap.ofKeys (c.counters.keys ++ other.counters.keys)).keys
  match relationFlags c other ks with
  | (false, false) => .equal
  | (true, false) => .happensBefore
  | (false, true) => .happensAfter
  | (true, true) => .concurrent

def isConcurrentWith (c other : VectorClock) : Bool := c.relation other = .concurrent

/-! ## 2. A clock as a function -/

/-- The counters a clock stands for: a total function, zero where nothing is registered. -/
def reading (c : VectorClock) : String → ℕ := fun k => (c.get k).toNat

theorem reading_eq_zero {c : VectorClock} {k : String} (h : k ∉ c.counters.keys) :
    c.reading k = 0 := by
  simp [reading, get, BTreeMap.get?_eq_none h]

/-- The two flags say whether some key of the list is smaller, and whether some is larger. -/
theorem relationFlags_spec (c d : VectorClock) (ks : List String) :
    ((relationFlags c d ks).1 = true ↔ ∃ k ∈ ks, c.reading k < d.reading k) ∧
      ((relationFlags c d ks).2 = true ↔ ∃ k ∈ ks, d.reading k < c.reading k) := by
  suffices h : ∀ (ks : List String) (p q : Bool),
      ((ks.foldl (fun flags k => (flags.1 || decide (c.get k < d.get k),
          flags.2 || decide (d.get k < c.get k))) (p, q)).1 = true ↔
        p = true ∨ ∃ k ∈ ks, c.reading k < d.reading k) ∧
      ((ks.foldl (fun flags k => (flags.1 || decide (c.get k < d.get k),
          flags.2 || decide (d.get k < c.get k))) (p, q)).2 = true ↔
        q = true ∨ ∃ k ∈ ks, d.reading k < c.reading k) by
    simpa [relationFlags] using h ks false false
  intro ks
  induction ks with
  | nil => intro p q; simp
  | cons k ks ih =>
    intro p q
    rw [List.foldl_cons]
    have h := ih (p || decide (c.get k < d.get k)) (q || decide (d.get k < c.get k))
    refine ⟨h.1.trans ?_, h.2.trans ?_⟩ <;>
      simp [reading, UInt64.lt_iff_toNat_lt, or_assoc]

/-- A key that is registered nowhere reads zero on both sides, so the keys of the two clocks
are all the keys there are to compare. -/
theorem exists_key_lt_iff (c d : VectorClock) {ks : List String}
    (hks : ∀ k, k ∈ ks ↔ k ∈ c.counters.keys ∨ k ∈ d.counters.keys) :
    (∃ k ∈ ks, c.reading k < d.reading k) ↔ ∃ k, c.reading k < d.reading k := by
  constructor
  · rintro ⟨k, -, h⟩
    exact ⟨k, h⟩
  · rintro ⟨k, h⟩
    refine ⟨k, (hks k).mpr ?_, h⟩
    by_contra hk
    have hz : d.reading k = 0 := reading_eq_zero fun hm => hk (Or.inr hm)
    omega

/-- **The flags of `relation` compare the two readings.** -/
theorem relation_flags (c d : VectorClock) :
    let ks := (BTreeMap.ofKeys (c.counters.keys ++ d.counters.keys)).keys
    ((relationFlags c d ks).1 = true ↔ ¬ d.reading ≤ c.reading) ∧
      ((relationFlags c d ks).2 = true ↔ ¬ c.reading ≤ d.reading) := by
  intro ks
  have hks : ∀ k, k ∈ ks ↔ k ∈ c.counters.keys ∨ k ∈ d.counters.keys := by
    intro k
    rw [BTreeMap.mem_keys_ofKeys, List.mem_append]
  obtain ⟨h1, h2⟩ := relationFlags_spec c d ks
  constructor
  · rw [h1, exists_key_lt_iff c d hks, Pi.le_def, not_forall]
    simp only [not_le]
  · rw [h2, exists_key_lt_iff d c (fun k => (hks k).trans or_comm), Pi.le_def, not_forall]
    simp only [not_le]

/-! ## 3. `relation` is the pointwise order -/

/-- **The four answers are the four cases of the pointwise order of the readings.** -/
theorem relation_spec (c d : VectorClock) :
    (c.relation d = .equal ↔ c.reading ≤ d.reading ∧ d.reading ≤ c.reading) ∧
      (c.relation d = .happensBefore ↔ c.reading ≤ d.reading ∧ ¬ d.reading ≤ c.reading) ∧
      (c.relation d = .happensAfter ↔ ¬ c.reading ≤ d.reading ∧ d.reading ≤ c.reading) ∧
      (c.relation d = .concurrent ↔ ¬ c.reading ≤ d.reading ∧ ¬ d.reading ≤ c.reading) := by
  obtain ⟨h1, h2⟩ := relation_flags c d
  unfold relation
  rcases hf : c.relationFlags d (BTreeMap.ofKeys (c.counters.keys ++ d.counters.keys)).keys
    with ⟨lt, gt⟩
  rw [hf] at h1 h2
  have hdc : d.reading ≤ c.reading ↔ ¬ lt = true := by rw [h1, not_not]
  have hcd : c.reading ≤ d.reading ↔ ¬ gt = true := by rw [h2, not_not]
  rw [hdc, hcd]
  cases lt <;> cases gt <;> simp [hf]

/-- `HappensBefore` is the strict order of the readings. -/
theorem relation_happensBefore_iff {c d : VectorClock} :
    c.relation d = .happensBefore ↔ c.reading < d.reading :=
  (relation_spec c d).2.1.trans lt_iff_le_not_ge.symm

/-- `HappensAfter` is `HappensBefore` the other way round. -/
theorem relation_happensAfter_iff {c d : VectorClock} :
    c.relation d = .happensAfter ↔ d.reading < c.reading :=
  (relation_spec c d).2.2.1.trans (and_comm.trans lt_iff_le_not_ge.symm)

/-- `Concurrent` means incomparable. -/
theorem relation_concurrent_iff {c d : VectorClock} :
    c.relation d = .concurrent ↔ ¬ c.reading ≤ d.reading ∧ ¬ d.reading ≤ c.reading :=
  (relation_spec c d).2.2.2

/-- Concurrency does not depend on which clock asks. -/
theorem relation_concurrent_comm {c d : VectorClock} :
    c.relation d = .concurrent ↔ d.relation c = .concurrent := by
  rw [relation_concurrent_iff, relation_concurrent_iff, and_comm]

/-- No clock is concurrent with itself. -/
theorem relation_self_ne_concurrent (c : VectorClock) : c.relation c ≠ .concurrent := fun h =>
  (relation_concurrent_iff.mp h).1 (le_refl _)

example : (single "alpha" 1).relation (single "alpha" 2) = .happensBefore := by decide

end VectorClock

end Musubi.Core
