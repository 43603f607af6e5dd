/-
# Substring search

`find needle s` is where the needle first starts in `s`.  The rules say how a search passes over
what stands before the needle: text without the needle's first element (`find_append_of_notMem`),
text without the needle up to an element that is not in it (`find_append_cons`), and that a search
which ends within a prefix does not see the rest (`find_of_scope`).

What makes a search hard to reason about is that the needle may start in one part of a text and
end in the next.  The rules are for the boundaries at which it cannot: where an element of the one
part, or of the needle, does not occur in the other.
-/
import Mathlib.Data.List.Basic

namespace Lib

variable {α : Type} [DecidableEq α]

/-! ## 1. The search -/

/-- Where the needle first starts. -/
def find (needle : List α) : List α → Option ℕ
  | [] => if needle = [] then some 0 else none
  | c :: s => if needle.isPrefixOf (c :: s) then some 0 else (find needle s).map (· + 1)

/-- The needle occurs. -/
def contains (needle s : List α) : Bool := (find needle s).isSome

/-- What follows the prefix. -/
def stripPrefix (p s : List α) : Option (List α) :=
  if p.isPrefixOf s then some (s.drop p.length) else none

variable {needle a s : List α}

theorem find_of_isPrefix (h : needle <+: s) : find needle s = some 0 := by
  cases s with
  | nil => rw [find, if_pos (List.prefix_nil.mp h)]
  | cons c s => rw [find, if_pos (List.isPrefixOf_iff_prefix.mpr h)]

theorem find_cons {c : α} (h : ¬ needle <+: c :: s) :
    find needle (c :: s) = (find needle s).map (· + 1) := by
  rw [find, if_neg (mt List.isPrefixOf_iff_prefix.mp h)]

/-- **A search fails exactly where the needle does not occur.** -/
theorem contains_eq_false_iff : contains needle s = false ↔ ¬ needle <:+: s := by
  induction s with
  | nil =>
    rw [contains, find, List.infix_nil]
    by_cases h : needle = []
    · simp [h]
    · simp [h]
  | cons c s ih =>
    rw [List.infix_cons_iff, not_or, ← ih]
    by_cases h : needle <+: c :: s
    · simp [contains, find_of_isPrefix h, h]
    · simp [contains, find_cons h, h]

/-- The search for one character fails exactly where it does not occur. -/
theorem find_singleton_eq_none {c : α} : find [c] s = none ↔ c ∉ s := by
  have hcontains : find [c] s = none ↔ contains [c] s = false := by
    unfold contains
    rw [Option.isSome_eq_false_iff, Option.isNone_iff_eq_none]
  rw [hcontains, contains_eq_false_iff]
  refine not_congr ?_
  constructor
  · intro h
    exact h.subset List.mem_cons_self
  · intro h
    obtain ⟨a, b, rfl⟩ := List.append_of_mem h
    exact ⟨a, b, by rw [List.append_assoc]; rfl⟩

theorem infix_of_find_eq_some {i : ℕ} (h : find needle s = some i) : needle <:+: s := by
  by_contra hne
  rw [← contains_eq_false_iff, contains, h] at hne
  cases hne

theorem find_le_length : ∀ {i : ℕ}, find needle s = some i → i ≤ s.length := by
  induction s with
  | nil =>
    intro i h
    unfold find at h
    split at h
    · cases h
      exact Nat.le_refl 0
    · cases h
  | cons c s ih =>
    intro i h
    by_cases hpre : needle <+: c :: s
    · rw [find_of_isPrefix hpre] at h
      cases h
      exact Nat.zero_le _
    · rw [find_cons hpre, Option.map_eq_some_iff] at h
      obtain ⟨j, hj, rfl⟩ := h
      exact Nat.succ_le_succ (ih hj)

theorem stripPrefix_eq_some {p rest : List α} (h : stripPrefix p s = some rest) :
    s = p ++ rest := by
  unfold stripPrefix at h
  split at h
  · rename_i hp
    obtain ⟨t, rfl⟩ := List.isPrefixOf_iff_prefix.mp hp
    rw [List.drop_left, Option.some_inj] at h
    rw [h]
  · cases h

theorem stripPrefix_append (p s : List α) : stripPrefix p (p ++ s) = some s := by
  unfold stripPrefix
  rw [if_pos (List.isPrefixOf_iff_prefix.mpr (List.prefix_append p s)), List.drop_left]

/-! ## 2. What a search passes over -/

omit [DecidableEq α] in
/-- A needle without `x` that is a prefix up to some `x` and beyond is a prefix up to it. -/
theorem prefix_of_prefix_append_cons {x : α} (hx : x ∉ needle) (h : needle <+: a ++ x :: s) :
    needle <+: a := by
  rcases List.prefix_or_prefix_of_prefix h (List.prefix_append a (x :: s)) with h' | ⟨t, rfl⟩
  · exact h'
  · cases t with
    | nil => simp
    | cons y t =>
      rw [List.prefix_append_right_inj, List.cons_prefix_cons] at h
      exact absurd (List.mem_append_right a (h.1 ▸ List.mem_cons_self)) hx

theorem map_add_map_succ (o : Option ℕ) (n : ℕ) :
    (o.map (n + ·)).map (· + 1) = o.map (n + 1 + ·) := by
  rw [Option.map_map]
  congr 1
  funext i
  exact Nat.add_right_comm n i 1

/-- Text without the first element of the needle. -/
theorem find_append_of_notMem {c : α} (h : c ∉ a) :
    find (c :: needle) (a ++ s) = (find (c :: needle) s).map (a.length + ·) := by
  induction a with
  | nil => simp
  | cons x a ih =>
    rw [List.mem_cons, not_or] at h
    have hpre : ¬ c :: needle <+: x :: (a ++ s) := by
      intro hp
      exact h.1 (List.cons_prefix_cons.mp hp).1
    rw [List.cons_append, find_cons hpre, ih h.2, map_add_map_succ, List.length_cons]

/-- Text without the needle, up to an element that the needle does not have. -/
theorem find_append_cons {x : α} (hne : needle ≠ []) (hx : x ∉ needle)
    (h : ¬ needle <:+: a) :
    find needle (a ++ x :: s) = (find needle s).map (a.length + 1 + ·) := by
  induction a with
  | nil =>
    have hpre : ¬ needle <+: x :: s := by
      intro hp
      exact hne (List.prefix_nil.mp (prefix_of_prefix_append_cons (a := []) hx hp))
    rw [List.nil_append, find_cons hpre, List.length_nil]
    congr 1
    funext i
    rw [Nat.zero_add, Nat.add_comm]
  | cons c a ih =>
    rw [List.infix_cons_iff, not_or] at h
    have hpre : ¬ needle <+: c :: (a ++ x :: s) := by
      intro hp
      exact h.1 (prefix_of_prefix_append_cons (a := c :: a) hx hp)
    rw [List.cons_append, find_cons hpre, ih h.2, map_add_map_succ, List.length_cons]

/-- **A search that ends within a prefix** ends there in the whole. -/
theorem find_of_scope {scope : List α} :
    ∀ {i : ℕ}, scope <+: s → find needle scope = some i → find needle s = some i := by
  induction scope generalizing s with
  | nil =>
    intro i _ h
    unfold find at h
    split at h
    · rename_i hnil
      rw [hnil, find_of_isPrefix List.nil_prefix]
      exact h
    · cases h
  | cons c scope ih =>
    intro i hs h
    obtain ⟨t, rfl⟩ := hs
    by_cases hpre : needle <+: c :: scope
    · rw [find_of_isPrefix hpre] at h
      rw [find_of_isPrefix (hpre.trans (List.prefix_append _ _)), h]
    · rw [find_cons hpre, Option.map_eq_some_iff] at h
      obtain ⟨j, hj, rfl⟩ := h
      have hlong : needle.length ≤ (c :: scope).length :=
        Nat.le_succ_of_le (infix_of_find_eq_some hj).length_le
      -- the needle fits into the prefix, so it does not start here in the whole either
      have hpre' : ¬ needle <+: c :: (scope ++ t) := by
        intro hp
        exact hpre (List.prefix_of_prefix_length_le hp (List.prefix_append (c :: scope) t) hlong)
      rw [List.cons_append, find_cons hpre', ih (List.prefix_append scope t) hj]
      rfl

/-- Text without the first element of the needle adds no occurrence. -/
theorem contains_append_of_notMem {c : α} (h : c ∉ a) :
    contains (c :: needle) (a ++ s) = contains (c :: needle) s := by
  unfold contains
  rw [find_append_of_notMem h, Option.isSome_map]

/-- Nor does text that starts as the needle does and then differs from it. -/
theorem contains_skipFront {c : α} (front more : List α) (hneedle : ¬ needle <+: front)
    (hfront : ¬ front <+: needle) (hc : c ∉ front ++ more) :
    contains (c :: needle) (c :: (front ++ more) ++ s) = contains (c :: needle) s := by
  have hpre : ¬ c :: needle <+: c :: (front ++ more ++ s) := by
    intro hp
    rw [List.append_assoc] at hp
    have hp' := (List.cons_prefix_cons.mp hp).2
    rcases List.prefix_or_prefix_of_prefix hp' (List.prefix_append _ _) with h' | h'
    · exact hneedle h'
    · exact hfront h'
  have hcons : contains (c :: needle) (c :: (front ++ more ++ s)) =
      contains (c :: needle) (front ++ more ++ s) := by
    unfold contains
    rw [find_cons hpre, Option.isSome_map]
  rw [List.cons_append, hcons, contains_append_of_notMem hc]

/-! ## 3. Ends of two elements -/

/-- A needle of two different elements that stands after text without it is found there. -/
theorem find_append_pair {x y : α} (hxy : x ≠ y) (h : ¬ [x, y] <:+: a) :
    find [x, y] (a ++ x :: y :: s) = some a.length := by
  induction a with
  | nil => exact find_of_isPrefix ⟨s, rfl⟩
  | cons c a ih =>
    rw [List.infix_cons_iff, not_or] at h
    have hpre : ¬ [x, y] <+: c :: (a ++ x :: y :: s) := by
      intro hp
      obtain ⟨hx, htail⟩ := List.cons_prefix_cons.mp hp
      cases a with
      | nil => exact hxy (List.cons_prefix_cons.mp htail).1.symm
      | cons d a =>
        have hy := (List.cons_prefix_cons.mp htail).1
        exact h.1 ⟨a, by rw [hx, hy]; rfl⟩
    rw [List.cons_append, find_cons hpre, ih h.2, List.length_cons]
    rfl

/-- Text up to its last delimiter, and what follows, are determined by the whole. -/
theorem append_cons_inj_right {x : α} {a b t : List α} (hs : x ∉ s) (ht : x ∉ t)
    (h : a ++ x :: s = b ++ x :: t) : a = b ∧ s = t := by
  have hreverse : s.reverse ++ x :: a.reverse = t.reverse ++ x :: b.reverse := by
    have := congrArg List.reverse h
    simpa using this
  have hfront {u v : List α} (hu : x ∉ u) : (u ++ x :: v).takeWhile (· ≠ x) = u := by
    have hall : ∀ c ∈ u, decide (c ≠ x) = true := fun c hc =>
      decide_eq_true (ne_of_mem_of_not_mem hc hu)
    rw [List.takeWhile_append_of_pos hall, List.takeWhile_cons_of_neg (by simp), List.append_nil]
  have hst : s.reverse = t.reverse := by
    rw [← hfront (List.mem_reverse.not.mpr hs), hreverse, hfront (List.mem_reverse.not.mpr ht)]
  obtain rfl := List.reverse_inj.mp hst
  exact ⟨List.append_cancel_right h, rfl⟩

/-- Text up to its first end, and what follows, are determined by the whole. -/
theorem append_pair_inj {x y : α} (hxy : x ≠ y) {a b t : List α} (ha : ¬ [x, y] <:+: a)
    (hb : ¬ [x, y] <:+: b) (h : a ++ x :: y :: s = b ++ x :: y :: t) : a = b ∧ s = t := by
  have hlen := find_append_pair (s := s) hxy ha
  rw [h, find_append_pair hxy hb, Option.some_inj] at hlen
  obtain ⟨rfl, hrest⟩ := List.append_inj h hlen.symm
  simp only [List.cons.injEq, true_and] at hrest
  exact ⟨rfl, hrest⟩

/-- A needle with its only `x` at the end starts a text that has its first `x` after `a` only
where it is all of `a`. -/
theorem prefix_append_cons_iff {x : α} (hneedle : x ∉ needle) (ha : x ∉ a) :
    needle ++ [x] <+: a ++ x :: s ↔ needle = a := by
  constructor
  · rintro ⟨t, ht⟩
    have hhere (t : List α) : find [x] (x :: t) = some 0 := find_of_isPrefix ⟨t, rfl⟩
    have hleft : find [x] (needle ++ x :: t) = some needle.length := by
      rw [find_append_of_notMem hneedle, hhere]
      rfl
    have hright : find [x] (a ++ x :: s) = some a.length := by
      rw [find_append_of_notMem ha, hhere]
      rfl
    rw [List.append_assoc, List.singleton_append] at ht
    rw [← ht, hleft, Option.some_inj] at hright
    exact (List.append_inj ht hright).1
  · rintro rfl
    exact ⟨s, by rw [List.append_assoc]; rfl⟩

/-- **The search for a needle with its only `x` at the end**, over text up to its first `x`.  The
one place where the two can meet is the end of that text. -/
theorem find_append_delim {x : α} (hne : needle ≠ []) (hneedle : x ∉ needle) (ha : x ∉ a) :
    find (needle ++ [x]) (a ++ x :: s) =
      if needle <:+ a then some (a.length - needle.length)
      else (find (needle ++ [x]) s).map (a.length + 1 + ·) := by
  induction a with
  | nil =>
    have hpre : ¬ needle ++ [x] <+: x :: s := by
      intro hp
      exact hne ((prefix_append_cons_iff hneedle List.not_mem_nil).mp hp)
    rw [List.nil_append, find_cons hpre, if_neg (mt List.suffix_nil.mp hne)]
    congr 1
    funext i
    exact Nat.add_comm i 1
  | cons c a ih =>
    have hiff := prefix_append_cons_iff (s := s) hneedle ha
    rw [List.mem_cons, not_or] at ha
    by_cases heq : needle = c :: a
    · rw [find_of_isPrefix (hiff.mpr heq), if_pos (heq ▸ List.suffix_refl _), heq, Nat.sub_self]
    · have hpre : ¬ needle ++ [x] <+: c :: (a ++ x :: s) := mt hiff.mp heq
      rw [List.cons_append, find_cons hpre, ih ha.2]
      by_cases hsuffix : needle <:+ a
      · have hlen := hsuffix.length_le
        rw [if_pos hsuffix, if_pos (List.suffix_cons_iff.mpr (Or.inr hsuffix)), Option.map_some,
          List.length_cons, Nat.sub_add_comm hlen]
      · have hcons : ¬ needle <:+ c :: a := by
          rw [List.suffix_cons_iff, not_or]
          exact ⟨heq, hsuffix⟩
        rw [if_neg hsuffix, if_neg hcons, map_add_map_succ, List.length_cons]

/-! ## 4. Where a search ends -/

/-- The needle is first met after `before`. -/
structure FoundAfter (needle s before after : List α) : Prop where
  split : s = before ++ after
  found : find needle s = some before.length

namespace FoundAfter

variable {before after : List α}

theorem here (h : needle <+: s) : FoundAfter needle s [] s := ⟨rfl, find_of_isPrefix h⟩

/-- Past text without the first element of the needle. -/
theorem skip {c : α} (h : FoundAfter (c :: needle) s before after) (hc : c ∉ a) :
    FoundAfter (c :: needle) (a ++ s) (a ++ before) after := by
  constructor
  · rw [h.split, List.append_assoc]
  · rw [find_append_of_notMem hc, h.found, Option.map_some, List.length_append]

/-- Past text that starts as the needle does and then differs from it. -/
theorem skipFront {c : α} (h : FoundAfter (c :: needle) s before after) (front more : List α)
    (hneedle : ¬ needle <+: front) (hfront : ¬ front <+: needle) (hc : c ∉ front ++ more) :
    FoundAfter (c :: needle) (c :: (front ++ more) ++ s) (c :: (front ++ more) ++ before)
      after := by
  have hpre : ¬ c :: needle <+: c :: (front ++ more ++ s) := by
    intro hp
    rw [List.append_assoc] at hp
    have hp' := (List.cons_prefix_cons.mp hp).2
    rcases List.prefix_or_prefix_of_prefix hp' (List.prefix_append _ _) with h' | h'
    · exact hneedle h'
    · exact hfront h'
  constructor
  · rw [h.split, List.append_assoc]
  · rw [List.cons_append, find_cons hpre, find_append_of_notMem hc, h.found]
    simp only [Option.map_some, List.length_append, List.length_cons, List.cons_append,
      Nat.add_right_comm]

theorem drop (h : FoundAfter needle s before after) : s.drop before.length = after := by
  rw [h.split, List.drop_left]

theorem take (h : FoundAfter needle s before after) : s.take before.length = before := by
  rw [h.split, List.take_left]

end FoundAfter

end Lib
