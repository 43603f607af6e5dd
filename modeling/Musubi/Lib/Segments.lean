/-
# Segments laid end to end

A list of segments covers `[a, b)` when the first starts at `a`, each next one starts where the
one before it stops, and the last stops at `b`.  Blocks of one length are the special case in
which the `i`-th starts at a multiple of `i`.  Segments whose elements name their owner are found
again by the owner.

Start and stop are functions of whatever a segment is, so records and blockettes, or anything that
knows where it lies, can be laid end to end.
-/
import Mathlib.Algebra.Order.Ring.Nat
import Mathlib.Data.List.Basic

namespace Lib

variable {α : Type}

/-- The segments lie end to end from `a` to `b`. -/
def EndToEnd (start stop : α → ℕ) : ℕ → List α → ℕ → Prop
  | a, [], b => a = b
  | a, x :: l, b => start x = a ∧ EndToEnd start stop (stop x) l b

variable {start stop : α → ℕ}

/-- One more segment at the end. -/
theorem EndToEnd.concat {l : List α} {x : α} {b : ℕ} (hx : start x = b) :
    ∀ {a : ℕ}, EndToEnd start stop a l b → EndToEnd start stop a (l ++ [x]) (stop x) := by
  induction l with
  | nil =>
    intro a h
    exact ⟨hx.trans h.symm, rfl⟩
  | cons y l ih =>
    intro a h
    exact ⟨h.1, ih h.2⟩

/-- **The lengths of the segments** sum up to what they cover. -/
theorem EndToEnd.sum_lengths {l : List α} (hlen : ∀ x ∈ l, start x ≤ stop x) :
    ∀ {a b : ℕ}, EndToEnd start stop a l b → a + (l.map fun x => stop x - start x).sum = b := by
  induction l with
  | nil =>
    intro a b h
    exact h
  | cons x l ih =>
    rw [List.forall_mem_cons] at hlen
    intro a b h
    have hrest := ih hlen.2 h.2
    have hx := h.1
    rw [List.map_cons, List.sum_cons]
    omega

/-- Where segments stop is known from them and from where they start. -/
theorem EndToEnd.stop_unique {l : List α} :
    ∀ {a b c : ℕ}, EndToEnd start stop a l b → EndToEnd start stop a l c → b = c := by
  induction l with
  | nil =>
    intro a b c hb hc
    exact hb.symm.trans hc
  | cons x l ih =>
    intro a b c hb hc
    exact ih hb.2 hc.2

/-- The last segment stops where all of them do. -/
theorem EndToEnd.exists_stop {l : List α} :
    ∀ {a b : ℕ}, EndToEnd start stop a l b → l ≠ [] → ∃ x ∈ l, stop x = b := by
  induction l with
  | nil =>
    intro a b _ hne
    exact absurd rfl hne
  | cons x l ih =>
    intro a b h _
    cases l with
    | nil => exact ⟨x, List.mem_singleton_self x, h.2⟩
    | cons y l =>
      obtain ⟨z, hz, hstop⟩ := ih h.2 (List.cons_ne_nil y l)
      exact ⟨z, List.mem_cons_of_mem x hz, hstop⟩

/-! ## Blocks of one length -/

variable {β : Type} {f : α → List β} {n : ℕ}

theorem length_flatMap_blocks {l : List α} (h : ∀ x ∈ l, (f x).length = n) :
    (l.flatMap f).length = n * l.length := by
  induction l with
  | nil => rfl
  | cons x l ih =>
    rw [List.forall_mem_cons] at h
    rw [List.flatMap_cons, List.length_append, h.1, ih h.2, List.length_cons, Nat.mul_succ,
      Nat.add_comm]

/-- Dropping whole blocks. -/
theorem drop_flatMap_blocks {l : List α} (h : ∀ x ∈ l, (f x).length = n) :
    ∀ i : ℕ, (l.flatMap f).drop (n * i) = (l.drop i).flatMap f := by
  induction l with
  | nil =>
    intro i
    rw [List.flatMap_nil, List.drop_nil, List.drop_nil, List.flatMap_nil]
  | cons x l ih =>
    intro i
    rw [List.forall_mem_cons] at h
    cases i with
    | zero => rfl
    | succ i =>
      rw [List.flatMap_cons, Nat.mul_succ, Nat.add_comm, ← h.1, List.drop_length_add_append, h.1,
        ih h.2, List.drop_succ_cons]

/-- **The `i`-th block** is what stands there. -/
theorem take_drop_flatMap_blocks {l : List α} (h : ∀ x ∈ l, (f x).length = n) {i : ℕ}
    (hi : i < l.length) : ((l.flatMap f).drop (n * i)).take n = f l[i] := by
  have hx := h l[i] (List.getElem_mem hi)
  rw [drop_flatMap_blocks h, List.drop_eq_getElem_cons hi, List.flatMap_cons, ← hx,
    List.take_left]

/-! ## Segments with owners -/

variable {κ : Type} [DecidableEq κ] {key : α → κ} {owner : β → κ}

/-- Nothing of an owner is in the segments of others. -/
theorem filter_flatMap_of_notMem {l : List α} (howner : ∀ x, ∀ y ∈ f x, owner y = key x) {k : κ}
    (hk : k ∉ l.map key) : (l.flatMap f).filter (fun y => owner y = k) = [] := by
  rw [List.filter_eq_nil_iff]
  intro y hy
  obtain ⟨x, hx, hyx⟩ := List.mem_flatMap.mp hy
  rw [decide_eq_true_iff, howner x y hyx]
  rintro rfl
  exact hk (List.mem_map_of_mem hx)

/-- **The segment of an owner** is what names the owner. -/
theorem filter_flatMap_of_nodup {l : List α} (howner : ∀ x, ∀ y ∈ f x, owner y = key x)
    (hnodup : (l.map key).Nodup) {x : α} (hx : x ∈ l) :
    (l.flatMap f).filter (fun y => owner y = key x) = f x := by
  induction l with
  | nil => cases hx
  | cons z l ih =>
    rw [List.map_cons, List.nodup_cons] at hnodup
    rw [List.flatMap_cons, List.filter_append]
    rcases List.mem_cons.mp hx with rfl | hx
    · have hown : (f x).filter (fun y => owner y = key x) = f x :=
        List.filter_eq_self.mpr fun y hy => decide_eq_true (howner x y hy)
      rw [hown, filter_flatMap_of_notMem howner hnodup.1, List.append_nil]
    · have hother : (f z).filter (fun y => owner y = key x) = [] := by
        rw [List.filter_eq_nil_iff]
        intro y hy
        rw [decide_eq_true_iff, howner z y hy]
        intro heq
        exact hnodup.1 (heq ▸ List.mem_map_of_mem hx)
      rw [hother, List.nil_append, ih hnodup.2 hx]

/-- **Entries gathered by owner** are the entries of the owners. -/
theorem flatMap_filter_perm {l : List α} (entries : List β) (hnodup : (l.map key).Nodup) :
    (l.flatMap fun x => entries.filter fun y => owner y = key x).Perm
      (entries.filter fun y => owner y ∈ l.map key) := by
  induction l with
  | nil => simp
  | cons x l ih =>
    rw [List.map_cons, List.nodup_cons] at hnodup
    rw [List.flatMap_cons]
    refine ((ih hnodup.2).append_left _).trans ?_
    -- the entries of `x`, then those of the others, within the entries of all
    have hsplit := List.filter_append_perm (fun y => decide (owner y = key x))
      (entries.filter fun y => owner y ∈ (x :: l).map key)
    rw [List.filter_filter, List.filter_filter] at hsplit
    refine List.Perm.trans (List.Perm.of_eq ?_) hsplit
    congr 1
    · refine List.filter_congr ?_
      intro y _
      by_cases hy : owner y = key x <;> simp [hy]
    · refine List.filter_congr ?_
      intro y _
      by_cases hy : owner y = key x
      · rw [hy]
        simpa using hnodup.1
      · simp [hy]

end Lib
