/-
# Clusters of a sorted list

A list is cut where two neighbours are too far apart (`List.splitBy`).  Of a sorted list the
pieces are sorted against each other: when only a strict step is far enough to cut, everything in
a piece comes strictly before everything in the next.  A loop that adds one element at the end
either extends the last piece or opens a new one.

Nothing is assumed of the relation that cuts but how it goes with the order, so a distance, a gap
in time or a change of key are all instances.
-/
import Mathlib.Data.List.SplitBy
import Mathlib.Order.Basic

namespace Lib

variable {α κ : Type} {r : α → α → Bool}

/-! ## 1. One more element -/

/-- An element near the last one joins its piece. -/
theorem splitBy_concat_of_near {l : List α} {g : List α} {init : List (List α)} {a x : α}
    (hl : l.splitBy r = init ++ [g ++ [a]]) (hr : r a x = true) :
    (l ++ [x]).splitBy r = init ++ [g ++ [a] ++ [x]] := by
  rw [List.splitBy_eq_iff]
  obtain ⟨hflat, hnil, hchain, hsep⟩ := List.splitBy_eq_iff.mp hl
  refine ⟨?_, ?_, ?_, ?_⟩
  · rw [hflat]
    simp
  · simpa using hnil
  · intro m hm
    rcases List.mem_append.mp hm with hm | hm
    · exact hchain m (List.mem_append_left _ hm)
    · rw [List.mem_singleton.mp hm, List.isChain_append]
      refine ⟨hchain _ (List.mem_append_right _ (List.mem_singleton_self _)),
        List.isChain_singleton _, ?_⟩
      simpa using hr
  · rw [List.isChain_append] at hsep ⊢
    refine ⟨hsep.1, List.isChain_singleton _, ?_⟩
    intro p hp q hq
    obtain ⟨hne, hga, hfar⟩ := hsep.2.2 p hp (g ++ [a]) rfl
    obtain rfl := Option.some.inj hq
    refine ⟨hne, List.append_ne_nil_of_left_ne_nil hga _, ?_⟩
    rw [List.head_append_of_ne_nil hga]
    exact hfar

/-- An element far from the last one opens a piece. -/
theorem splitBy_concat_of_far {l : List α} {x : α} (h : ∀ a ∈ l.getLast?, r a x = false) :
    (l ++ [x]).splitBy r = l.splitBy r ++ [[x]] := List.splitBy_append_cons [] h

/-- The last piece ends where the list does. -/
theorem exists_splitBy_eq_concat {l : List α} {a : α} (h : l.getLast? = some a) :
    ∃ init g, l.splitBy r = init ++ [g ++ [a]] := by
  have hne : l ≠ [] := by
    rintro rfl
    cases h
  have hpieces : l.splitBy r ≠ [] := List.splitBy_ne_nil.mpr hne
  have hlast := List.getLast_getLast_splitBy r hne
  rw [List.getLast?_eq_some_getLast hne, Option.some.injEq] at h
  refine ⟨(l.splitBy r).dropLast, ((l.splitBy r).getLast hpieces).dropLast, ?_⟩
  have hpiece := List.dropLast_append_getLast
    (List.ne_nil_of_mem_splitBy (List.getLast_mem hpieces))
  rw [← h, ← hlast, hpiece, List.dropLast_append_getLast hpieces]

/-! ## 2. Sorted lists -/

/-- **The pieces of a sorted list are apart as its cuts are**, when what is apart stays apart
further out. -/
theorem pairwise_splitBy_of_cut [Preorder κ] {key : α → κ} {apart : α → α → Prop} {l : List α}
    (hsorted : l.Pairwise fun a b => key a ≤ key b)
    (hcut : ∀ a ∈ l, ∀ b ∈ l, key a ≤ key b → r a b = false → apart a b)
    (hout : ∀ a a' b b', key a' ≤ key a → apart a b → key b ≤ key b' → apart a' b') :
    (l.splitBy r).Pairwise fun g g' => ∀ a ∈ g, ∀ b ∈ g', apart a b := by
  have hflat : (l.splitBy r).flatten.Pairwise fun a b => key a ≤ key b := by
    rwa [List.flatten_splitBy]
  have hmem : ∀ g ∈ l.splitBy r, ∀ a ∈ g, a ∈ l := by
    intro g hg a ha
    rw [← List.flatten_splitBy r l]
    exact List.mem_flatten_of_mem hg ha
  rw [List.pairwise_flatten] at hflat
  have hne := List.nil_notMem_splitBy r l
  have hchain := List.isChain_getLast_head_splitBy r l
  revert hflat hne hchain hmem
  generalize l.splitBy r = pieces
  rintro ⟨hin, hacross⟩ hmem hne hchain
  induction pieces with
  | nil => exact List.Pairwise.nil
  | cons g pieces ih =>
    rw [List.pairwise_cons] at hacross ⊢
    rw [List.mem_cons, not_or] at hne
    have hrest := ih (fun m hm => hin m (List.mem_cons_of_mem _ hm)) hacross.2
      (fun m hm => hmem m (List.mem_cons_of_mem _ hm)) hne.2 hchain.tail
    refine ⟨?_, hrest⟩
    intro g' hg' a ha b hb
    -- the list is cut behind `g`, and `g'` starts at the cut or later
    cases pieces with
    | nil => cases hg'
    | cons h pieces =>
      obtain ⟨hg, hh, hfar⟩ := (List.isChain_cons_cons.mp hchain).1
      have hle : key (g.getLast hg) ≤ key (h.head hh) :=
        hacross.1 h List.mem_cons_self _ (List.getLast_mem hg) _ (List.head_mem hh)
      have hbefore : key a ≤ key (g.getLast hg) := by
        have hg2 := hin g List.mem_cons_self
        rw [← List.dropLast_append_getLast hg, List.pairwise_append] at hg2
        rw [← List.dropLast_append_getLast hg, List.mem_append, List.mem_singleton] at ha
        rcases ha with ha | rfl
        · exact hg2.2.2 a ha _ (List.mem_singleton_self _)
        · exact le_refl _
      have hafter : key (h.head hh) ≤ key b := by
        rcases List.mem_cons.mp hg' with rfl | hg'
        · have hh2 := hin g' (List.mem_cons_of_mem _ List.mem_cons_self)
          rw [← List.cons_head_tail hh, List.pairwise_cons] at hh2
          rw [← List.cons_head_tail hh] at hb
          rcases List.mem_cons.mp hb with rfl | hb
          · exact le_refl _
          · exact hh2.1 b hb
        · exact (List.pairwise_cons.mp hacross.2).1 g' hg' _ (List.head_mem hh) b hb
      have hapart : apart (g.getLast hg) (h.head hh) :=
        hcut _ (hmem g List.mem_cons_self _ (List.getLast_mem hg)) _
          (hmem h (List.mem_cons_of_mem _ List.mem_cons_self) _ (List.head_mem hh)) hle hfar
      exact hout _ _ _ _ hbefore hapart hafter

/-- **The pieces of a sorted list are strictly in order** when only a strict step is a cut. -/
theorem pairwise_splitBy [Preorder κ] {key : α → κ} {l : List α}
    (hsorted : l.Pairwise fun a b => key a ≤ key b)
    (hfar : ∀ a b, key a ≤ key b → r a b = false → key a < key b) :
    (l.splitBy r).Pairwise fun g g' => ∀ a ∈ g, ∀ b ∈ g', key a < key b :=
  pairwise_splitBy_of_cut hsorted (fun a _ b _ => hfar a b) fun a a' b b' ha hab hb =>
    calc key a' ≤ key a := ha
      _ < key b := hab
      _ ≤ key b' := hb

end Lib
