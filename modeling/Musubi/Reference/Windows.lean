/-
# Windows of triggers

What `windows_from_triggers` does, without its loop: the triggers in order of time are cut where
two neighbours are more than the gap apart, and each piece is a window that starts at its first
trigger (`windowsFromTriggers_eq`).  So every trigger is in one window, and the windows start one
after the other.

A window may hold triggers that are further from its start than its span, since only neighbours
are compared; it then ends before them.  What lies within its span is what its times say, and all
of its triggers are what its claim is about (`WindowOf`).

The comparisons are of differences in 64 bits.  `Representable` says that they are those of
integers, and the equation with the pieces needs it not, as it compares what the code compares.
-/
import Musubi.Lib.Clusters
import Musubi.Reference.Cause

namespace Musubi.Reference

open Lib

abbrev Trigger := Int64 × TriggerId

/-- The later of two neighbours is near enough to share a window. -/
def near (gapMs : Int64) (p q : Trigger) : Bool := decide (q.1 - p.1 ≤ gapMs)

/-- The window of a piece, with the places of its triggers. -/
def groupWindow (spanMs : Int64) : List Trigger → Window × List TriggerId
  | [] => (⟨0, spanMs⟩, [])
  | (t, i) :: rest => (⟨t, t + spanMs⟩, i :: rest.map Prod.snd)

theorem groupWindow_snd (spanMs : Int64) (g : List Trigger) :
    (groupWindow spanMs g).2 = g.map Prod.snd := by
  cases g with
  | nil => rfl
  | cons p g => rfl

theorem groupWindow_concat {spanMs : Int64} {g : List Trigger} (hg : g ≠ []) (p : Trigger) :
    groupWindow spanMs (g ++ [p]) =
      ((groupWindow spanMs g).1, (groupWindow spanMs g).2 ++ [p.2]) := by
  cases g with
  | nil => exact absurd rfl hg
  | cons q g => simp [groupWindow]

/-! ## 1. The loop -/

/-- What the loop has after a prefix of the triggers. -/
structure Clustered (gapMs spanMs : Int64) (done : List Trigger) (c : Clustering) : Prop where
  windows_eq : c.windows = (done.splitBy (near gapMs)).map (groupWindow spanMs)
  lastT_eq : ∀ last ∈ done.getLast?, c.lastT = last.1

theorem Clustered.step {gapMs spanMs : Int64} {done : List Trigger} {c : Clustering}
    (h : Clustered gapMs spanMs done c) (p : Trigger) :
    Clustered gapMs spanMs (done ++ [p]) (clusterStep gapMs spanMs c p) := by
  have hlast (c' : Clustering) (hc' : c'.lastT = p.1) :
      ∀ last ∈ (done ++ [p]).getLast?, c'.lastT = last.1 := by
    intro last hmem
    rw [List.getLast?_append_of_ne_nil _ (List.cons_ne_nil _ _)] at hmem
    obtain rfl := Option.some.inj hmem
    exact hc'
  have hopen (hfar : ∀ a ∈ done.getLast?, near gapMs a p = false) :
      Clustered gapMs spanMs (done ++ [p])
        ⟨c.windows ++ [(⟨p.1, p.1 + spanMs⟩, [p.2])], p.1⟩ := by
    constructor
    · rw [splitBy_concat_of_far hfar, List.map_append, h.windows_eq]
      rfl
    · exact hlast _ rfl
  cases hdone : done.getLast? with
  | none =>
    obtain rfl := List.getLast?_eq_none_iff.mp hdone
    have hnone : c.windows.getLast? = none := by rw [h.windows_eq]; rfl
    simp only [clusterStep, hnone]
    exact hopen (by simp)
  | some a =>
    obtain ⟨init, g, hsplit⟩ := exists_splitBy_eq_concat (r := near gapMs) hdone
    have hwindows : c.windows =
        init.map (groupWindow spanMs) ++ [groupWindow spanMs (g ++ [a])] := by
      rw [h.windows_eq, hsplit, List.map_append]
      rfl
    have hnewest : c.windows.getLast? = some (groupWindow spanMs (g ++ [a])) := by
      rw [hwindows, List.getLast?_append_of_ne_nil _ (List.cons_ne_nil _ _)]
      rfl
    have hlastT := h.lastT_eq a hdone
    simp only [clusterStep, hnewest, hlastT]
    split
    · rename_i hnear
      constructor
      · rw [splitBy_concat_of_near hsplit (decide_eq_true hnear), List.map_append, hwindows,
          List.dropLast_concat, List.map_singleton,
          groupWindow_concat (List.append_ne_nil_of_right_ne_nil _ (List.cons_ne_nil _ _))]
      · exact hlast _ rfl
    · rename_i hnear
      refine hopen ?_
      intro b hb
      rw [hdone] at hb
      obtain rfl := Option.some.inj hb
      exact decide_eq_false hnear

/-- **The windows are the pieces of the sorted triggers.** The induction has the open window as
its variable. -/
theorem windowsFromTriggers_eq (triggers : List Trigger) (gapMs spanMs : Int64) :
    windowsFromTriggers triggers gapMs spanMs =
      ((triggers.insertionSort triggerLe).splitBy (near gapMs)).map (groupWindow spanMs) := by
  have hrun (l : List Trigger) : ∀ {done : List Trigger} {c : Clustering},
      Clustered gapMs spanMs done c →
      Clustered gapMs spanMs (done ++ l) (l.foldl (clusterStep gapMs spanMs) c) := by
    induction l with
    | nil =>
      intro done c h
      rwa [List.append_nil]
    | cons p l ih =>
      intro done c h
      have hnext := ih (h.step p)
      rwa [List.append_assoc] at hnext
  have hstart : Clustered gapMs spanMs [] ⟨[], Int64.minValue⟩ := ⟨rfl, by simp⟩
  exact (hrun (triggers.insertionSort triggerLe) hstart).windows_eq

/-! ## 2. What the windows hold -/

instance : Std.Total triggerLe where
  total p q := by
    unfold triggerLe
    rcases lt_trichotomy p.1.toInt q.1.toInt with h | h | h
    · exact Or.inl (Or.inl h)
    · rcases le_total p.2 q.2 with hle | hle
      · exact Or.inl (Or.inr ⟨h, hle⟩)
      · exact Or.inr (Or.inr ⟨h.symm, hle⟩)
    · exact Or.inr (Or.inl h)

instance : IsTrans Trigger triggerLe where
  trans p q r hpq hqr := by
    unfold triggerLe at *
    rcases hpq with hpq | ⟨hpq, hle⟩
    · omega
    · rcases hqr with hqr | ⟨hqr, hle'⟩
      · omega
      · exact Or.inr ⟨hpq.trans hqr, hle.trans hle'⟩

/-- Every trigger is in exactly one window: the windows are the runs of the sorted triggers, and
sorting keeps each of them. -/
theorem flatMap_windowsFromTriggers (triggers : List Trigger) (gapMs spanMs : Int64) :
    ((windowsFromTriggers triggers gapMs spanMs).flatMap Prod.snd).Perm
      (triggers.map Prod.snd) := by
  rw [windowsFromTriggers_eq, List.flatMap_map]
  simp only [groupWindow_snd]
  rw [← List.map_flatMap, List.flatMap_id', List.flatten_splitBy]
  exact (List.perm_insertionSort triggerLe triggers).map _

theorem pairwise_insertionSort_toInt (triggers : List Trigger) :
    (triggers.insertionSort triggerLe).Pairwise fun p q => p.1.toInt ≤ q.1.toInt := by
  refine (List.pairwise_insertionSort triggerLe triggers).imp ?_
  intro p q h
  unfold triggerLe at h
  omega

/-- **The windows start one after the other.** A gap of zero is enough for that, as a trigger at
the same time is in the same window. -/
theorem pairwise_windowsFromTriggers (triggers : List Trigger) {gapMs : Int64} (spanMs : Int64)
    (hgap : 0 ≤ gapMs) :
    (windowsFromTriggers triggers gapMs spanMs).Pairwise fun w w' =>
      w.1.startMs.toInt < w'.1.startMs.toInt := by
  have hsorted := pairwise_insertionSort_toInt triggers
  have hpieces := pairwise_splitBy (r := near gapMs) hsorted fun p q hle hfar => by
    refine lt_of_le_of_ne hle fun heq => ?_
    -- equal times are no gap apart
    rw [near, Int64.toInt_inj.mp heq, Int64.sub_self] at hfar
    exact of_decide_eq_false hfar hgap
  rw [windowsFromTriggers_eq, List.pairwise_map]
  refine hpieces.imp_of_mem ?_
  intro g g' hg hg' h
  obtain ⟨p, rest, rfl⟩ := List.exists_cons_of_ne_nil (List.ne_nil_of_mem_splitBy hg)
  obtain ⟨q, rest', rfl⟩ := List.exists_cons_of_ne_nil (List.ne_nil_of_mem_splitBy hg')
  exact h p List.mem_cons_self q List.mem_cons_self

/-! ## 3. Where the triggers of a window lie -/

/-- The differences of the times of the triggers are `i64`s, and so are the ends of windows. -/
structure Representable (spanMs : Int64) (triggers : List Trigger) : Prop where
  sub_eq : ∀ p ∈ triggers, ∀ q ∈ triggers, (q.1 - p.1).toInt = q.1.toInt - p.1.toInt
  add_eq : ∀ p ∈ triggers, (p.1 + spanMs).toInt = p.1.toInt + spanMs.toInt

/-- A window and the triggers that are in it.  It starts at the first of them, each of them is
near the one in front of it, and it ends a span after its start, whatever they are. -/
structure WindowOf (gapMs spanMs : Int64) (w : Window × List TriggerId) (g : List Trigger) :
    Prop where
  ids_eq : w.2 = g.map Prod.snd
  start_eq : g.head?.map Prod.fst = some w.1.startMs
  start_le : ∀ p ∈ g, w.1.startMs.toInt ≤ p.1.toInt
  before_end_iff : ∀ p ∈ g,
    p.1.toInt < w.1.endMs.toInt ↔ p.1.toInt - w.1.startMs.toInt < spanMs.toInt
  chain : g.IsChain fun p q => q.1.toInt - p.1.toInt ≤ gapMs.toInt

variable {gapMs spanMs : Int64} {triggers : List Trigger}

theorem windowOf_piece (h : Representable spanMs triggers) {g : List Trigger}
    (hg : g ∈ (triggers.insertionSort triggerLe).splitBy (near gapMs)) :
    WindowOf gapMs spanMs (groupWindow spanMs g) g := by
  have hmem : ∀ p ∈ g, p ∈ triggers := by
    intro p hp
    rw [← (List.perm_insertionSort triggerLe triggers).mem_iff,
      ← List.flatten_splitBy (near gapMs) (triggers.insertionSort triggerLe)]
    exact List.mem_flatten_of_mem hg hp
  have hsorted : g.Pairwise fun p q => p.1.toInt ≤ q.1.toInt := by
    have hall := pairwise_insertionSort_toInt triggers
    rw [← List.flatten_splitBy (near gapMs) (triggers.insertionSort triggerLe),
      List.pairwise_flatten] at hall
    exact hall.1 g hg
  have hchain := List.isChain_of_mem_splitBy hg
  obtain ⟨p, rest, rfl⟩ := List.exists_cons_of_ne_nil (List.ne_nil_of_mem_splitBy hg)
  have hfirst : ∀ q ∈ p :: rest, p.1.toInt ≤ q.1.toInt := by
    rw [List.forall_mem_cons]
    exact ⟨Int.le_refl _, (List.pairwise_cons.mp hsorted).1⟩
  refine ⟨groupWindow_snd spanMs _, rfl, hfirst, ?_, ?_⟩
  · intro q hq
    have hend : (p.1 + spanMs).toInt = p.1.toInt + spanMs.toInt :=
      h.add_eq p (hmem p List.mem_cons_self)
    change q.1.toInt < (p.1 + spanMs).toInt ↔ q.1.toInt - p.1.toInt < spanMs.toInt
    rw [hend]
    omega
  · refine hchain.imp_of_mem_imp ?_
    intro q q' hq hq' hnear
    have hle : (q'.1 - q.1).toInt ≤ gapMs.toInt :=
      Int64.le_iff_toInt_le.mp (of_decide_eq_true hnear)
    rwa [h.sub_eq q (hmem q hq) q' (hmem q' hq')] at hle

/-- **The triggers of two windows are more than the gap apart.** -/
theorem pairwise_gap (h : Representable spanMs triggers) :
    ((triggers.insertionSort triggerLe).splitBy (near gapMs)).Pairwise fun g g' =>
      ∀ p ∈ g, ∀ q ∈ g', gapMs.toInt < q.1.toInt - p.1.toInt := by
  refine pairwise_splitBy_of_cut (pairwise_insertionSort_toInt triggers) ?_ ?_
  · intro p hp q hq _ hfar
    rw [(List.perm_insertionSort triggerLe triggers).mem_iff] at hp hq
    have hlt : ¬ (q.1 - p.1).toInt ≤ gapMs.toInt := fun hle =>
      of_decide_eq_false hfar (Int64.le_iff_toInt_le.mpr hle)
    rw [h.sub_eq p hp q hq] at hlt
    exact Int.not_le.mp hlt
  · intro p p' q q' hp hpq hq
    omega

end Musubi.Reference
